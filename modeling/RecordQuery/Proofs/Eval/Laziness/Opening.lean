import Mathlib.Data.List.Forall2
import RecordQuery.Proofs.Eval.Laziness.Sources

/-!
# Opening sequences, and what filters make of them

`Source.Refines` says of a sequence that is at hand when it is opened and of one that is delivered
that they have the same values. `Source.OpensLike` says of two sequences that one delivers what the
other brings, and `Source.DeliveredBy` that both come to an end besides. The working set is such a
pair with itself (`deliveredBy_everything`), and a sequence that is read to its end as soon as it is
opened refines the other one (`Source.DeliveredBy.materialized`).

What reads a sequence that is opened needs only `Source.Serves` of the reader
(`Source.Refines.exists_settles`). From this follow listing a sequence (`Source.Refines.collect`)
and every filter, if its lambdas refine one another (`Binder.Refines`).
-/

namespace RecordQuery

variable {α β γ : Type} {owns : Bool} {s s₁ s' t : State}

namespace Source

/-! ## Opening -/

/-- A sequence that is at hand when it is opened, and one that is delivered. -/
structure Refines (eager lazy : Source) : Prop where
  /-- What is at hand is read value by value. -/
  advance : eager.advance = Cursor.read
  /-- What is delivered comes to an end. -/
  descends : lazy.Descends
  /-- The values at hand are the values that are delivered. -/
  start : ∀ s cursor s', eager.start.Ends s cursor s' → ∃ values owns, cursor = .values values ∧
    s.Spends owns s' ∧ lazy.start.Settles owns s fun cursor t => lazy.Delivers owns t cursor values

/-- Whenever the first evaluation opens a sequence that brings values, the second opens one that
delivers them. -/
def OpensLike (outer : Source) (start : Eval Cursor) (outer' : Source) (start' : Eval Cursor) :
    Prop :=
  ∀ s cursor s₁ values s', start.Ends s cursor s₁ → outer.Brings s₁ cursor values s' →
    ∃ owns, s.Spends owns s' ∧
      start'.Settles owns s fun cursor t => outer'.Delivers owns t cursor values

section opening

variable {outer outer' : Source}

/-- What comes before the opening of a sequence. -/
theorem opensLike_bind {x x' : Eval α} {f f' : α → Eval Cursor} (hx : x.Refines x')
    (hf : ∀ a, OpensLike outer (f a) outer' (f' a)) :
    OpensLike outer (x >>= f) outer' (x' >>= f') := by
  intro s cursor s₁ values s' hstart hbrings
  obtain ⟨a, s₂, hfirst, hnext⟩ := hstart.bind
  obtain ⟨owns, hspends, hsettles⟩ := hx s a s₂ hfirst
  obtain ⟨owns', hspends', hsettles'⟩ := hf a s₂ cursor s₁ values s' hnext hbrings
  refine ⟨owns || owns', hspends.trans hspends', hsettles.bind (by simp +contextual) ?_⟩
  rintro a t ht rfl
  have hwithin := hspends.within hspends' (by simp +contextual) ht
  have hle : owns' = true → (owns || owns') = true := by simp +contextual
  exact ((hsettles'.within hwithin).weaken hle).mono fun cursor t h => h.weaken hle

/-- The values of an evaluation are at hand on either side. -/
theorem opensLike_ofValue {x x' : Eval Value} (houter : outer.advance = Cursor.read)
    (houter' : outer'.advance = Cursor.read) (hx : x.Refines x') :
    OpensLike outer (ofValue x).start outer' (ofValue x').start := by
  refine opensLike_bind hx fun value s cursor s₁ values s' hstart hbrings => ?_
  obtain ⟨rfl, rfl⟩ := Eval.ends_pure_iff.mp hstart
  obtain ⟨rfl, rfl⟩ := hbrings.eq_of_values fun _ => by rw [houter]
  exact ⟨false, .nothing _,
    Eval.settles_pure fun t _ => delivers_values (fun _ => by rw [houter']) false t _⟩

/-- Pulls on a working set that was taken leave it taken. -/
theorem exists_state_read (cursor : Cursor) (bindings : List (String × Value)) (tape : Tape) :
    ∃ rest, (cursor.read ⟨bindings, .taken tape⟩).state = ⟨bindings, .taken rest⟩ := by
  rcases cursor with rest | _ | _ | _ | _ | _
  case values => rcases rest with _ | ⟨value, rest⟩ <;> exact ⟨tape, rfl⟩
  case workingSet => rcases tape with ⟨trace, item, rest⟩ | trace | _ <;> exact ⟨_, rfl⟩
  all_goals exact ⟨tape, rfl⟩

/-- A cursor that owns the working set delivers what it brings, since nothing comes between. -/
theorem Brings.delivers (houter : outer.advance = Cursor.read)
    (houter' : outer'.advance = Cursor.read) {bindings : List (String × Value)} {tape : Tape}
    {cursor : Cursor} {values : List Value}
    (h : outer.Brings ⟨bindings, .taken tape⟩ cursor values s') :
    (∃ rest, s' = ⟨bindings, .taken rest⟩) ∧
      outer'.Delivers true ⟨bindings, .taken tape⟩ cursor values := by
  induction values generalizing cursor tape with
  | nil =>
      obtain ⟨hend, hstate⟩ := h
      rw [houter] at hend hstate
      obtain ⟨rest, hrest⟩ := exists_state_read cursor bindings tape
      refine ⟨⟨rest, hstate.symm.trans hrest⟩, fun t ht => ?_⟩
      obtain rfl := ht.eq_of_owns rfl
      rw [houter']
      exact ⟨by rw [hrest]; exact ⟨rfl, by simp⟩, by simp, hend⟩
  | cons value values ih =>
      obtain ⟨hitem, hlater⟩ := h
      rw [houter] at hitem hlater
      obtain ⟨rest, hrest⟩ := exists_state_read cursor bindings tape
      rw [hrest] at hlater
      obtain ⟨hstate, hdelivers⟩ := ih hlater
      refine ⟨hstate, fun t ht => ?_⟩
      obtain rfl := ht.eq_of_owns rfl
      rw [houter']
      refine ⟨by rw [hrest]; exact ⟨rfl, by simp⟩, by simp, hitem, ?_⟩
      rw [hrest]
      exact hdelivers

/-- The working set is taken by both, and read by the second where it stands. -/
theorem opensLike_takeEverything (houter : outer.advance = Cursor.read)
    (houter' : outer'.advance = Cursor.read) :
    OpensLike outer Cursor.takeEverything outer' Cursor.takeEverything := by
  rintro s cursor s₁ values s' ⟨trace, hstart⟩ hbrings
  obtain ⟨bindings, _ | tape | tape⟩ := s
  · rw [Cursor.run_takeEverything_of_unset rfl] at hstart
    cases hstart
    obtain ⟨rfl, rfl⟩ := hbrings.eq_of_values fun _ => by rw [houter]
    refine ⟨false, .nothing _, fun t ht => ?_⟩
    have hunset : t.workingSet = .unset := ht.akin.unset.mpr rfl
    have hrun : Cursor.takeEverything t = _ := Cursor.run_takeEverything_of_unset hunset
    rw [hrun]
    exact ⟨ht.akin, fun _ => rfl, _, rfl, delivers_values (fun _ => by rw [houter']) false t []⟩
  · rw [Cursor.run_takeEverything_of_available rfl] at hstart
    cases hstart
    obtain ⟨⟨rest, rfl⟩, hdelivers⟩ := hbrings.delivers houter houter'
    refine ⟨true, .workingSet bindings tape rest, fun t ht => ?_⟩
    obtain rfl := ht.eq_of_owns rfl
    have hrun : Cursor.takeEverything ⟨bindings, .available tape⟩ =
        ⟨.ok .workingSet, ⟨bindings, .taken tape⟩, []⟩ := rfl
    rw [hrun]
    exact ⟨⟨rfl, by simp⟩, by simp, _, rfl, hdelivers⟩
  · rw [Cursor.run_takeEverything_of_taken rfl] at hstart
    cases hstart

/-- What lists the rest of a sequence settles on the values that are delivered. -/
theorem Delivers.drain (houter' : outer'.Descends) {cursor : Cursor} {values : List Value}
    (h : outer'.Delivers owns t cursor values) :
    (outer'.drain cursor).Settles owns t fun b _ => b = values := by
  let hand : Source := ofValue (pure .null)
  have hhand : hand.advance = Cursor.read := rfl
  have hread : ∀ (values gathered : List Value), (hand.readFrom
      (fun gathered value => pure (.more (value :: gathered))) List.reverse (.values values)
        gathered).Ends t (gathered.reverse ++ values) t := by
    intro values
    induction values with
    | nil => exact fun gathered => ⟨[], by simp [readFrom_values_nil hhand]⟩
    | cons value rest ih =>
        intro gathered
        rw [readFrom_values_cons hhand, pure_bind]
        simpa using ih (value :: gathered)
  obtain ⟨reads, hspends, hreads⟩ := houter'.serves_readFrom hhand
    (fun _ _ => Eval.advances_pure _) (fun _ _ => Eval.refines_pure _) (hread values [])
  obtain rfl := hspends.eq_false
  exact hreads ⟨id, by simp, by simp, .refl false t⟩ h

variable {start start' : Eval Cursor} (h : OpensLike outer start outer' start')
  (houter : outer.Descends) (houter' : outer'.Descends)

include h houter houter'

/-- The values that are listed are the same. -/
theorem OpensLike.refines_drain :
    (start >>= outer.drain).Refines (start' >>= outer'.drain) := by
  intro s values s' hends
  obtain ⟨cursor, s₁, hstart, hdrain⟩ := hends.bind
  have hbrings := houter.brings_of_drain hdrain
  obtain ⟨owns, hspends, hopens⟩ := h s cursor s₁ values s' hstart hbrings
  exact ⟨owns, hspends, hopens.bind id fun cursor t _ hdelivers => hdelivers.drain houter'⟩

end opening

/-- What one sequence brings, another delivers. Both come to an end. -/
structure DeliveredBy (outer outer' : Source) : Prop where
  /-- The sequences are opened like one another. -/
  opens : OpensLike outer outer.start outer' outer'.start
  /-- The first comes to an end. -/
  left : outer.Descends
  /-- The second comes to an end. -/
  right : outer'.Descends

/-- Listing the second comes to the same as listing the first, if that succeeds. -/
theorem DeliveredBy.collect {outer outer' : Source} (h : outer.DeliveredBy outer') :
    outer.collect.Refines outer'.collect :=
  h.opens.refines_drain h.left h.right

/-- **A sequence that is read to its end as soon as it is opened refines one that is not.** -/
theorem DeliveredBy.materialized {outer outer' : Source} (h : outer.DeliveredBy outer') :
    outer.materialized.Refines outer' where
  advance := rfl
  descends := h.right
  start := by
    intro s cursor s' hstart
    obtain ⟨list, s₁, hlist, hpure⟩ := hstart.bind
    obtain ⟨rfl, rfl⟩ := Eval.ends_pure_iff.mp hpure
    obtain ⟨values, hcollect, rfl⟩ := hlist.map
    obtain ⟨inner, s₂, hinner, hdrain⟩ := hcollect.bind
    have hbrings := h.left.brings_of_drain hdrain
    obtain ⟨owns, hspends, hopens⟩ := h.opens s inner s₂ values _ hinner hbrings
    exact ⟨values, owns, rfl, hspends, hopens⟩

/-- The items of values that refine one another are brought and delivered. -/
theorem deliveredBy_ofValue {x x' : Eval Value} (h : x.Refines x') :
    (ofValue x).DeliveredBy (ofValue x') :=
  ⟨opensLike_ofValue rfl rfl h, descends_ofValue x, descends_ofValue x'⟩

/-- The working set brings and delivers the same. -/
theorem deliveredBy_everything : everything.DeliveredBy everything :=
  ⟨opensLike_takeEverything rfl rfl, descends_everything, descends_everything⟩

section

variable {eager lazy : Source} (h : eager.Refines lazy)

include h

/-- What reads a sequence that is opened settles on what it makes of the values at hand. -/
theorem Refines.exists_settles {next : Cursor → Eval α} (Post : Bool → α → State → Prop)
    {cursor : Cursor} (hstart : eager.start.Ends s cursor s₁)
    (hserves : ∀ values, cursor = .values values → lazy.Serves values s₁ s' fun whole t cursor =>
      (next cursor).Settles whole t (Post whole)) :
    ∃ owns, s.Spends owns s' ∧ (lazy.start >>= next).Settles owns s (Post owns) := by
  obtain ⟨values, owns, rfl, hspends, hopens⟩ := h.start s cursor s₁ hstart
  obtain ⟨reads, hspends', hreads⟩ := hserves values rfl
  refine ⟨owns || reads, hspends.trans hspends', hopens.bind (by simp +contextual) ?_⟩
  intro cursor t ht hdelivers
  have hwithin := hspends.within hspends' (by simp +contextual) ht
  exact hreads ⟨by simp +contextual, by simp +contextual, hspends.exclusive hspends', hwithin⟩
    hdelivers

/-- Readers refine one another if their looks do. -/
theorem Refines.read {visit visit' : β → Value → Eval (Progress β γ)} {finish : β → γ}
    (hv : ∀ gathered value, (visit' gathered value).Advances)
    (hvisit : ∀ gathered value, (visit gathered value).Refines (visit' gathered value))
    (gathered : β) :
    (eager.read visit finish gathered).Refines (lazy.read visit' finish gathered) := by
  intro s result s' hread
  obtain ⟨cursor, s₁, hstart, hrest⟩ := hread.bind
  refine h.exists_settles (fun _ b _ => b = result) hstart ?_
  rintro values rfl
  exact h.descends.serves_readFrom h.advance hv hvisit hrest

/-- Listing what is delivered refines listing what is at hand. -/
theorem Refines.collect : eager.collect.Refines lazy.collect :=
  h.read (fun _ _ => Eval.advances_pure _) (fun _ _ => Eval.refines_pure _) []

/-- What follows the opening of a sequence, up to where another one is open. -/
theorem Refines.opensLike {outer outer' : Source} {next next' : Cursor → Eval Cursor}
    (hnext : ∀ items s cursor s₁ values s', (next (.values items)).Ends s cursor s₁ →
      outer.Brings s₁ cursor values s' → lazy.Serves items s s' fun whole t cursor =>
        (next' cursor).Settles whole t fun cursor t => outer'.Delivers whole t cursor values) :
    OpensLike outer (eager.start >>= next) outer' (lazy.start >>= next') := by
  intro s cursor s₁ values s' hstart hbrings
  obtain ⟨inner, s₂, hinner, hrest⟩ := hstart.bind
  refine h.exists_settles (fun whole cursor t => outer'.Delivers whole t cursor values) hinner ?_
  rintro items rfl
  exact hnext items s₂ cursor s₁ values s' hrest hbrings

/-- A filter is opened with the sequence that it is made of. -/
theorem Refines.opensLike_map {outer outer' : Source} {wrap wrap' : Cursor → Cursor}
    (hwrap : ∀ items s values s', outer.Brings s (wrap (.values items)) values s' →
      lazy.Serves items s s' fun whole t cursor =>
        outer'.Delivers whole t (wrap' cursor) values) :
    OpensLike outer (wrap <$> eager.start) outer' (wrap' <$> lazy.start) := by
  rw [map_eq_pure_bind, map_eq_pure_bind]
  refine h.opensLike fun items s cursor s₁ values s' hpure hbrings => ?_
  obtain ⟨rfl, rfl⟩ := Eval.ends_pure_iff.mp hpure
  obtain ⟨reads, hspends, hreads⟩ := hwrap items _ values s' hbrings
  refine ⟨reads, hspends, fun hshares hdelivers => ?_⟩
  have hopened := hreads hshares hdelivers
  exact Eval.settles_pure fun t ht => hopened.within ht

end

end Source

/-! ## Lambdas -/

namespace Binder

/-- Two lambdas of the same variable, the body of one of which refines that of the other. -/
structure Refines (queries : Registry) (binder binder' : Binder) : Prop where
  /-- They bind the same variable. -/
  name : binder'.name = binder.name
  /-- The bodies refine one another. -/
  body : binder.body.Refines binder'.body
  /-- The first leads to later states. -/
  left : Binder.Obeys (State.later queries) binder
  /-- The second leads to later states. -/
  right : Binder.Obeys (State.later queries) binder'

variable {queries : Registry} {binder binder' : Binder}

/-- Applications of lambdas that refine one another do so. -/
theorem Refines.apply (h : Binder.Refines queries binder binder') (argument : Value) :
    (binder.apply argument).Refines (binder'.apply argument) := by
  unfold Binder.apply
  rw [h.name]
  exact Eval.refines_withBinding _ _ h.body

/-- So do tests by them. -/
theorem Refines.test (h : Binder.Refines queries binder binder') (argument : Value) :
    (binder.test argument).Refines (binder'.test argument) :=
  Eval.refines_map _ (h.apply argument)

/-- The second of two lambdas that refine one another leads to later states. -/
theorem obeys_of_refines {binders binders' : List Binder}
    (h : List.Forall₂ (Binder.Refines queries) binders binders') :
    ∀ binder ∈ binders', Binder.Obeys (State.later queries) binder := by
  induction h with
  | nil => exact List.forall_mem_nil _
  | cons hbinder _ ih => exact List.forall_mem_cons.mpr ⟨hbinder.right, ih⟩

/-- Tests by several lambdas refine one another. -/
theorem refines_testAll {binders binders' : List Binder}
    (h : List.Forall₂ (Binder.Refines queries) binders binders') (argument : Value) :
    (testAll binders argument).Refines (testAll binders' argument) := by
  induction h with
  | nil => exact Eval.refines_pure _
  | cons hbinder _ ih =>
      refine Eval.refines_bind (hbinder.test argument) fun passes => ?_
      split
      · exact ih
      · exact Eval.refines_pure _

end Binder

/-! ## Filters -/

namespace Source

variable {eager lazy : Source} (h : eager.Refines lazy)

/-- A filter by a rule looks for its items with that rule, and notes nothing. -/
theorem looks_mapping (source : Source) {accept : Item → Action (Option Item)}
    (ha : ∀ item, (accept item).Advances) :
    Looks (source.mapping accept) source (fun _ : Unit => accept) (fun _ _ => ())
      (fun _ => Cursor.derived) :=
  ⟨fun _ _ => rfl, fun _ => ha⟩

/-- The filter of first occurrences notes what it passes on. -/
theorem looks_unique (source : Source) :
    Looks source.unique source
      (fun seen => onValues fun value => pure (if seen.contains value then none else some value))
      (fun seen item =>
        match item with
        | some (.ok value) => seen.insert value
        | _ => seen)
      Cursor.unseen where
  advance seen cursor := by
    show (source.seek _ cursor >>= _) = _
    congr 1
    funext ⟨item, inner⟩
    rcases item with _ | e | value <;> rfl
  advances := advances_unseen

include h

/-- Filters by rules that refine one another bring and deliver the same. -/
theorem Refines.mapping {accept accept' : Value → Eval (Option Value)}
    (ha : ∀ item, (onValues accept item).Advances)
    (ha' : ∀ item, (onValues accept' item).Advances)
    (haccept : ∀ value, (accept value).Refines (accept' value)) :
    (eager.mapping (onValues accept)).DeliveredBy (lazy.mapping (onValues accept')) where
  opens := by
    refine h.opensLike_map fun items s values s' hbrings => ?_
    exact (looks_mapping eager ha).serves (looks_mapping lazy ha') h.advance h.descends
      (fun _ value => refinesItem_onValues (haccept value)) () hbrings
  left := (descends_of_advance_eq_read h.advance).mapping ha
  right := h.descends.mapping ha'

/-- So do first occurrences. -/
theorem Refines.unique : eager.unique.DeliveredBy lazy.unique where
  opens := by
    refine h.opensLike_map fun items s values s' hbrings => ?_
    exact (looks_unique eager).serves (looks_unique lazy) h.advance h.descends
      (fun _ value => refinesItem_onValues (Eval.refines_pure _)) _ hbrings
  left := (descends_of_advance_eq_read h.advance).unique
  right := h.descends.unique

/-- So do limits, if their numbers refine one another. -/
theorem Refines.limited {count count' : Eval Nat} (hcount : count.Refines count') :
    (eager.limited count).DeliveredBy (lazy.limited count') where
  opens := by
    refine opensLike_bind hcount fun left => ?_
    refine h.opensLike fun items s cursor s₁ values s' hpure hbrings => ?_
    obtain ⟨rfl, rfl⟩ := Eval.ends_pure_iff.mp hpure
    obtain ⟨rfl, rfl⟩ := hbrings.eq_take h.advance
    refine ⟨false, .nothing _, fun hshares hdelivers => Eval.settles_pure fun t ht => ?_⟩
    exact ((hdelivers.weaken hshares.cursor).limited count').within ht
  left := (descends_of_advance_eq_read h.advance).limited count
  right := h.descends.limited count'

section lambdas

variable {queries : Registry} {binder binder' : Binder} {binders binders' : List Binder}

/-- So do selections and rejections by lambdas. -/
theorem Refines.sifted (keep : Bool) (hb : Binder.Refines queries binder binder') :
    (eager.sifted keep binder).DeliveredBy (lazy.sifted keep binder') :=
  h.mapping (advances_sift hb.left keep) (advances_sift hb.right keep)
    fun value => Eval.refines_bind (hb.test value) fun _ => Eval.refines_pure _

/-- So do the results of lambdas. -/
theorem Refines.mapped (hb : Binder.Refines queries binder binder') :
    (eager.mapped binder).DeliveredBy (lazy.mapped binder') :=
  h.mapping (advances_replace hb.left) (advances_replace hb.right)
    fun value => Eval.refines_map _ (hb.apply value)

/-- Groupings by lambdas that refine one another do so. -/
theorem Refines.grouped (hb : List.Forall₂ (Binder.Refines queries) binders binders') :
    (eager.grouped binders).Refines (lazy.grouped binders') := by
  refine h.read (fun winners value => ?_) (fun winners value => ?_) []
  · have htests := Binder.Obeys.testAll (Binder.obeys_of_refines hb) value
    exact (Eval.obeys_bind htests fun _ => Eval.obeys_pure _).advances
  · exact Eval.refines_bind (Binder.refines_testAll hb value) fun _ => Eval.refines_pure _

/-- As a sequence they bring and deliver the same. -/
theorem Refines.latest (hb : List.Forall₂ (Binder.Refines queries) binders binders') :
    (eager.latest binders).DeliveredBy (lazy.latest binders') :=
  deliveredBy_ofValue (Eval.refines_map _ (h.grouped hb))

end lambdas

end Source

end RecordQuery
