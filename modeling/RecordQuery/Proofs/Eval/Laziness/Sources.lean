import RecordQuery.Proofs.Eval.Eager
import RecordQuery.Proofs.Eval.Fusion
import RecordQuery.Proofs.Eval.Laziness

/-!
# Sequences that are read to their end at once, and sequences that are not

Eager evaluation has the items of a sequence at hand before anything looks at them
(`Source.Brings`). Lazy evaluation has a cursor that delivers them one by one
(`Source.Delivers`), and what looks at an item runs between two pulls. A cursor may own the working
set, because it reads it or because a lambda is still to take it; then nothing that runs between its
pulls does.

`Source.Serves` says of something that reads from a cursor that it settles on what eager evaluation
makes of the items at hand. It holds of the reading loop (`Source.Descends.serves_readFrom`) and of
filters (`Source.Looks.serves`), each by induction on the items: a pull, a look and the rest, of
which at most one owns the working set. It holds of handing a sequence over
(`Source.serves_handOver`), where the pulls come one after the other and nothing between them, and a
limit delivers the first of what it is given (`Source.Delivers.limited`).
-/

namespace RecordQuery

variable {α β γ : Type} {owns whole : Bool} {s s₁ s' t : State}

/-! ## Sequences at hand -/

namespace Source

/-- Pulls bring values, none of them a failure, and then the end. -/
def Brings (source : Source) : State → Cursor → List Value → State → Prop
  | s, cursor, [], s' =>
    (source.advance cursor s).value.1 = none ∧ (source.advance cursor s).state = s'
  | s, cursor, value :: rest, s' =>
    (source.advance cursor s).value.1 = some (.ok value) ∧
      source.Brings (source.advance cursor s).state (source.advance cursor s).value.2 rest s'

/-- What is gathered from a cursor on is what pulls bring. -/
theorem Descends.exists_brings {source : Source} (h : source.Descends) {cursor : Cursor}
    {gathered values : List Value}
    (hread : (source.readFrom (fun gathered value => pure (.more (value :: gathered)))
      List.reverse cursor gathered).Ends s values s') :
    ∃ rest, values = gathered.reverse ++ rest ∧ source.Brings s cursor rest s' := by
  induction hn : cursor.bound s using Nat.strongRecOn generalizing cursor s gathered with
  | ind n ih =>
    rw [h.readFrom_eq fun _ _ => Eval.advances_pure _] at hread
    obtain ⟨⟨item, inner⟩, s₁, hpull, hrest⟩ := hread.bind
    obtain ⟨hitem, hstate⟩ := Eval.ends_ofAction_iff.mp hpull
    rcases item with _ | e | value
    · obtain ⟨rfl, rfl⟩ := Eval.ends_pure_iff.mp hrest
      exact ⟨[], by simp, by rw [hitem], hstate⟩
    · exact absurd hrest Eval.not_ends_throw
    · have hlt : inner.bound s₁ < n := by
        have hdescends := h cursor s (.ok value) (by rw [hitem])
        rw [hitem, hstate, hn] at hdescends
        exact hdescends
      obtain ⟨rest, rfl, hbrings⟩ := ih _ hlt hrest rfl
      refine ⟨value :: rest, by simp, by rw [hitem], ?_⟩
      rw [hitem, hstate]
      exact hbrings

/-- What is listed from a cursor on is what pulls bring. -/
theorem Descends.brings_of_drain {source : Source} (h : source.Descends) {cursor : Cursor}
    {values : List Value} (hdrain : (source.drain cursor).Ends s values s') :
    source.Brings s cursor values s' := by
  obtain ⟨rest, hvalues, hbrings⟩ := h.exists_brings hdrain
  obtain rfl : values = rest := hvalues
  exact hbrings

/-- Values at hand are what pulls bring, and the state is left alone. -/
theorem Brings.eq_of_values {source : Source}
    (h : ∀ rest, source.advance (.values rest) = Cursor.read (.values rest))
    {items values : List Value} (hbrings : source.Brings s (.values items) values s') :
    values = items ∧ s' = s := by
  induction items generalizing values with
  | nil =>
      rcases values with _ | ⟨value, rest⟩
      · have hstate := hbrings.2
        rw [h] at hstate
        exact ⟨rfl, hstate.symm⟩
      · have hitem := hbrings.1
        rw [h] at hitem
        cases hitem
  | cons item items ih =>
      rcases values with _ | ⟨value, rest⟩
      · have hnone := hbrings.1
        rw [h] at hnone
        cases hnone
      · obtain ⟨hitem, hrest⟩ := hbrings
        rw [h] at hitem hrest
        obtain ⟨rfl, rfl⟩ := ih hrest
        cases hitem
        exact ⟨rfl, rfl⟩

/-! ## Sequences that are delivered -/

/-- What was pulled is the first of some values, and the rest is delivered from there on. -/
def Awaits (source : Source) (owns : Bool) : List Value → Option Item × Cursor → State → Prop
  | [], pulled, _ => pulled.1 = none
  | value :: rest, pulled, t =>
    pulled.1 = some (.ok value) ∧
      (source.advance pulled.2).Settles owns t (source.Awaits owns rest)

/-- Pulls settle on values, one after the other, and on the end after the last one. -/
def Delivers (source : Source) (owns : Bool) (s : State) (cursor : Cursor) (values : List Value) :
    Prop :=
  (source.advance cursor).Settles owns s (source.Awaits owns values)

variable {source : Source} {cursor : Cursor} {values : List Value}

/-- What is delivered in one state is delivered in every state that the run can start from. -/
theorem Delivers.within (h : source.Delivers owns s cursor values) (ht : s.Within owns t) :
    source.Delivers owns t cursor values :=
  Action.Settles.within h ht

/-- What is delivered without the working set can be part of what owns it. -/
theorem Delivers.weaken (h : source.Delivers owns s cursor values)
    (hle : owns = true → whole = true) : source.Delivers whole s cursor values := by
  induction values generalizing s cursor with
  | nil => exact Action.Settles.weaken h hle
  | cons value rest ih =>
      refine (Action.Settles.weaken h hle).mono fun pulled t ⟨hitem, hrest⟩ => ⟨hitem, ?_⟩
      exact ih hrest

/-- Values at hand are delivered, whatever happens to the working set between. -/
theorem delivers_values
    (h : ∀ rest, source.advance (.values rest) = Cursor.read (.values rest)) (owns : Bool)
    (s : State) (values : List Value) : source.Delivers owns s (.values values) values := by
  induction values generalizing s with
  | nil =>
      unfold Delivers
      rw [h]
      exact Action.settles_pure fun _ _ => rfl
  | cons value rest ih =>
      unfold Delivers
      rw [h]
      exact Action.settles_pure fun t _ => ⟨rfl, ih t⟩

/-- What holds of a reader of some values, where it leads from one state to another if they are at
hand, holds of it wherever they are delivered. The cursor may own the working set, or the reader,
but not both. -/
def Serves (source : Source) (values : List Value) (s s' : State)
    (Holds : Bool → State → Cursor → Prop) : Prop :=
  ∃ reads, s.Spends reads s' ∧ ∀ {owns whole t cursor}, s.Shares owns reads whole t →
    source.Delivers owns t cursor values → Holds whole t cursor

/-! ## Reading -/

section read

variable {visit visit' : β → Value → Eval (Progress β γ)} {finish : β → γ}

/-- Reading no values comes to an end at once. -/
theorem readFrom_values_nil {eager : Source} (h : eager.advance = Cursor.read) (gathered : β) :
    eager.readFrom visit finish (.values []) gathered = pure (finish gathered) := by
  obtain ⟨start, advance⟩ := eager
  obtain rfl : advance = Cursor.read := h
  rfl

/-- Reading values at hand is a look at the first one and reading the others. -/
theorem readFrom_values_cons {eager : Source} (h : eager.advance = Cursor.read) (value : Value)
    (rest : List Value) (gathered : β) :
    eager.readFrom visit finish (.values (value :: rest)) gathered = (do
      match ← visit gathered value with
      | .more gathered => eager.readFrom visit finish (.values rest) gathered
      | .done result => return result) := by
  obtain ⟨start, advance⟩ := eager
  obtain rfl : advance = Cursor.read := h
  rfl

/-- **Reading**: what is made of the values at hand is what is made of them when they are delivered
between one look and the next. -/
theorem Descends.serves_readFrom {eager lazy : Source} (heager : eager.advance = Cursor.read)
    (hlazy : lazy.Descends) (hv : ∀ gathered value, (visit' gathered value).Advances)
    (h : ∀ gathered value, (visit gathered value).Refines (visit' gathered value))
    {values : List Value} {gathered : β} {result : γ}
    (hread : (eager.readFrom visit finish (.values values) gathered).Ends s result s') :
    lazy.Serves values s s' fun whole t cursor =>
      (lazy.readFrom visit' finish cursor gathered).Settles whole t fun b _ => b = result := by
  induction values generalizing s gathered with
  | nil =>
      rw [readFrom_values_nil heager] at hread
      obtain ⟨rfl, rfl⟩ := Eval.ends_pure_iff.mp hread
      refine ⟨false, .nothing _, fun hshares hdelivers => ?_⟩
      dsimp only
      rw [hlazy.readFrom_eq hv]
      have hpull := Eval.settles_ofAction hdelivers
      refine hpull.bind hshares.cursor fun ⟨item, inner⟩ t _ hend => ?_
      obtain rfl : item = none := hend
      exact Eval.settles_pure fun _ _ => rfl
  | cons value rest ih =>
      rw [readFrom_values_cons heager] at hread
      obtain ⟨progress, s₁, hvisit, hrest⟩ := hread.bind
      obtain ⟨looks, hspends, hlooks⟩ := h gathered value s progress s₁ hvisit
      have hreads : lazy.Serves rest s₁ s' fun whole t cursor =>
          Eval.Settles whole t (match progress with
            | .more gathered => lazy.readFrom visit' finish cursor gathered
            | .done result => pure result) fun b _ => b = result := by
        rcases progress with gathered' | early
        · exact ih hrest
        · obtain ⟨rfl, rfl⟩ := Eval.ends_pure_iff.mp hrest
          exact ⟨false, .nothing _, fun _ _ => Eval.settles_pure fun _ _ => rfl⟩
      obtain ⟨reads, hspends', hreads⟩ := hreads
      refine ⟨looks || reads, hspends.trans hspends', fun hshares hdelivers => ?_⟩
      dsimp only
      rw [hlazy.readFrom_eq hv]
      -- the pull, the look at its item, and the rest: at most one of them owns the working set
      have hpull := Eval.settles_ofAction hdelivers
      refine hpull.bind hshares.cursor fun ⟨item, inner⟩ t₁ ht₁ hpulled => ?_
      obtain ⟨hitem, hinner⟩ := hpulled
      obtain rfl : item = some (.ok value) := hitem
      have hshares₁ := hshares.pull ht₁
      have hlook := hlooks.within hshares₁.look
      refine hlook.bind hshares₁.looks_whole fun progress t₂ ht₂ hprogress => ?_
      subst hprogress
      have hrest : lazy.Delivers _ t₂ inner rest := Delivers.within hinner (hshares₁.rest ht₂)
      exact hreads (hshares₁.later hspends hspends' ht₂) hrest

end read

end Source

/-! ## Looking for an item -/

/-- Whenever the first action ends with anything but a failing item, the second settles on it. -/
def Action.RefinesItem (accept accept' : Action (Option Item)) : Prop :=
  ∀ s, (∀ e, (accept s).value ≠ some (.error e)) →
    ∃ owns, s.Spends owns (accept s).state ∧
      accept'.Settles owns s fun item _ => item = (accept s).value

/-- What is at hand settles on itself. -/
theorem Action.refinesItem_pure (item : Option Item) :
    Action.RefinesItem (pure item) (pure item) :=
  fun s _ => ⟨false, .nothing s, settles_pure fun _ _ => rfl⟩

namespace Source

/-- Rules for values refine one another on the items that are values. -/
theorem refinesItem_onValues {accept accept' : Value → Eval (Option Value)} {value : Value}
    (h : (accept value).Refines (accept' value)) :
    Action.RefinesItem (onValues accept (.ok value)) (onValues accept' (.ok value)) := by
  intro s hok
  rw [onValues_ok] at hok ⊢
  rcases hrun : (accept value).run s with ⟨e | item, after, trace⟩ <;> rw [hrun] at hok
  · exact absurd rfl (hok e)
  · obtain ⟨owns, hspends, hsettles⟩ := h s item after ⟨trace, hrun⟩
    refine ⟨owns, hspends, fun t ht => ?_⟩
    obtain ⟨hakin, hunchanged, accepted, hvalue, rfl⟩ := hsettles t ht
    have hrun' : ((accept' value).run t).value = .ok accepted := hvalue
    rw [onValues_ok, hrun']
    exact ⟨hakin, hunchanged, rfl⟩

/-- Nothing is found among no values. -/
theorem seek_values_nil {eager : Source} (h : eager.advance = Cursor.read)
    (accept : Item → Action (Option Item)) :
    eager.seek accept (.values []) = pure (none, .values []) := by
  obtain ⟨start, advance⟩ := eager
  obtain rfl : advance = Cursor.read := h
  rfl

/-- Looking for an item among values at hand is a look at the first one and looking among the
others. -/
theorem seek_values_cons {eager : Source} (h : eager.advance = Cursor.read)
    (accept : Item → Action (Option Item)) (value : Value) (rest : List Value) :
    eager.seek accept (.values (value :: rest)) = (do
      match ← accept (.ok value) with
      | some item => return (some item, .values rest)
      | none => eager.seek accept (.values rest)) := by
  obtain ⟨start, advance⟩ := eager
  obtain rfl : advance = Cursor.read := h
  rfl

/-- A filter that looks for its next item in another sequence: what it looks for may depend on what
it passed on before. -/
structure Looks {σ : Type} (outer inner : Source) (accept : σ → Item → Action (Option Item))
    (next : σ → Option Item → σ) (wrap : σ → Cursor → Cursor) : Prop where
  /-- A pull looks for an item and notes it. -/
  advance : ∀ state cursor, outer.advance (wrap state cursor) = (do
    let (item, cursor) ← inner.seek (accept state) cursor
    return (item, wrap (next state item) cursor))
  /-- Looking at an item leads to a later state. -/
  advances : ∀ state item, (accept state item).Advances

section looks

variable {σ : Type} {outer inner : Source} {accept : σ → Item → Action (Option Item)}
  {next : σ → Option Item → σ} {wrap : σ → Cursor → Cursor}
  (h : Looks outer inner accept next wrap)

/-- Pulls that come to the same bring the same. -/
theorem Brings.of_after {source : Source} {cursor cursor' : Cursor} {trace : Trace}
    {values : List Value}
    (hpull : source.advance cursor s = (source.advance cursor' s₁).after trace)
    (hbrings : source.Brings s cursor values s') : source.Brings s₁ cursor' values s' := by
  rcases values with _ | ⟨value, rest⟩ <;> rw [Brings, hpull] at hbrings <;> exact hbrings

include h

/-- A filter of no values brings none, and leaves the state alone. -/
theorem Looks.brings_nil (hinner : inner.advance = Cursor.read) {state : σ} {values : List Value}
    (hbrings : outer.Brings s (wrap state (.values [])) values s') : values = [] ∧ s' = s := by
  have hpull : outer.advance (wrap state (.values [])) s =
      ⟨(none, wrap (next state none) (.values [])), s, []⟩ := by
    rw [h.advance, seek_values_nil hinner]
    rfl
  rcases values with _ | ⟨value, rest⟩ <;> rw [Brings, hpull] at hbrings
  · exact ⟨rfl, hbrings.2.symm⟩
  · cases hbrings.1

/-- A filter of values at hand looks at the first one, which does not fail, and brings what it makes
of it before what it makes of the others. -/
theorem Looks.brings_cons (hinner : inner.advance = Cursor.read) {state : σ} {value : Value}
    {rest values : List Value}
    (hbrings : outer.Brings s (wrap state (.values (value :: rest))) values s') :
    (∀ e, (accept state (.ok value) s).value ≠ some (.error e)) ∧
      match (accept state (.ok value) s).value with
      | none =>
        outer.Brings (accept state (.ok value) s).state (wrap state (.values rest)) values s'
      | some item => ∃ first later, item = .ok first ∧ values = first :: later ∧
        outer.Brings (accept state (.ok value) s).state
          (wrap (next state (some item)) (.values rest)) later s' := by
  have hpull : outer.advance (wrap state (.values (value :: rest))) s =
      match accept state (.ok value) s with
      | ⟨none, after, trace⟩ =>
        (outer.advance (wrap state (.values rest)) after).after trace
      | ⟨some item, after, trace⟩ =>
        ⟨(some item, wrap (next state (some item)) (.values rest)), after, trace⟩ := by
    rw [h.advance, h.advance, seek_values_cons hinner, Action.bind_eq_after, Action.bind_eq_after]
    rcases accept state (.ok value) s with ⟨_ | item, after, trace⟩
    · simp [Action.bind_eq_after, Outcome.after]
    · simp [Action.pure_apply, Outcome.after]
  rcases haccept : accept state (.ok value) s with ⟨_ | e | first, after, trace⟩ <;>
    rw [haccept] at hpull
  · refine ⟨by rintro e ⟨⟩, ?_⟩
    exact hbrings.of_after hpull
  · rcases values with _ | ⟨value, rest⟩ <;> rw [Brings, hpull] at hbrings <;> cases hbrings.1
  · refine ⟨by rintro e ⟨⟩, ?_⟩
    rcases values with _ | ⟨value, rest⟩ <;> rw [Brings, hpull] at hbrings
    · cases hbrings.1
    · obtain ⟨hitem, hrest⟩ := hbrings
      cases hitem
      exact ⟨_, _, rfl, rfl, hrest⟩

/-- A pull is a pull on the other sequence and, if its item is refused, a pull from there. -/
theorem Looks.advance_eq (hinner : inner.Descends) (state : σ) (cursor : Cursor) :
    outer.advance (wrap state cursor) = (do
      match ← inner.advance cursor with
      | (none, cursor) => return (none, wrap (next state none) cursor)
      | (some item, cursor) =>
        match ← accept state item with
        | some item => return (some item, wrap (next state (some item)) cursor)
        | none => outer.advance (wrap state cursor)) := by
  rw [h.advance, hinner.seek_eq (h.advances state), bind_assoc]
  congr 1
  funext ⟨item, cursor⟩
  rcases item with _ | item
  · rfl
  · simp only [bind_assoc]
    congr 1
    funext accepted
    rcases accepted with _ | item
    · exact (h.advance state cursor).symm
    · rfl

omit h in
/-- **Filtering**: the items that are found among the values at hand are those that are found when
the values are delivered between one look and the next. -/
theorem Looks.serves {eager lazy outer' : Source} {accept' : σ → Item → Action (Option Item)}
    {wrap' : σ → Cursor → Cursor} (hE : Looks outer eager accept next wrap)
    (hL : Looks outer' lazy accept' next wrap') (heager : eager.advance = Cursor.read)
    (hlazy : lazy.Descends)
    (haccept : ∀ state value,
      Action.RefinesItem (accept state (.ok value)) (accept' state (.ok value)))
    (state : σ) {items values : List Value}
    (hbrings : outer.Brings s (wrap state (.values items)) values s') :
    lazy.Serves items s s' fun whole t cursor =>
      outer'.Delivers whole t (wrap' state cursor) values := by
  induction items generalizing s state values with
  | nil =>
      obtain ⟨rfl, rfl⟩ := hE.brings_nil heager hbrings
      refine ⟨false, .nothing _, fun hshares hdelivers => ?_⟩
      show Action.Settles _ _ (outer'.advance _) _
      rw [hL.advance_eq hlazy]
      refine Action.Settles.bind hshares.cursor hdelivers fun ⟨item, inner⟩ t _ hend => ?_
      obtain rfl : item = none := hend
      exact Action.settles_pure fun _ _ => rfl
  | cons item items ih =>
      obtain ⟨hok, hfound⟩ := hE.brings_cons heager hbrings
      obtain ⟨looks, hspends, hlooks⟩ := haccept state item s hok
      generalize (accept state (.ok item) s).value = found,
        (accept state (.ok item) s).state = s₁ at hfound hspends hlooks
      have hreads : lazy.Serves items s₁ s' fun whole t cursor =>
          Action.Settles whole t (match found with
            | some item => pure (some item, wrap' (next state (some item)) cursor)
            | none => outer'.advance (wrap' state cursor)) (outer'.Awaits whole values) := by
        rcases found with _ | found
        · exact ih state hfound
        · obtain ⟨first, later, rfl, rfl, hrest⟩ := hfound
          obtain ⟨reads, hspends', hreads⟩ := ih _ hrest
          refine ⟨reads, hspends', fun hshares hdelivers => ?_⟩
          have hlater := hreads hshares hdelivers
          exact Action.settles_pure fun t ht => ⟨rfl, hlater.within ht⟩
      obtain ⟨reads, hspends', hreads⟩ := hreads
      refine ⟨looks || reads, hspends.trans hspends', fun hshares hdelivers => ?_⟩
      show Action.Settles _ _ (outer'.advance _) _
      rw [hL.advance_eq hlazy]
      refine Action.Settles.bind hshares.cursor hdelivers fun ⟨pulled, inner⟩ t₁ ht₁ hpulled => ?_
      obtain ⟨hitem, hinner⟩ := hpulled
      obtain rfl : pulled = some (.ok item) := hitem
      have hshares₁ := hshares.pull ht₁
      have hlook := hlooks.within hshares₁.look
      refine hlook.bind hshares₁.looks_whole fun found t₂ ht₂ hfound => ?_
      subst hfound
      have hrest : lazy.Delivers _ t₂ inner items := Delivers.within hinner (hshares₁.rest ht₂)
      exact hreads (hshares₁.later hspends hspends' ht₂) hrest

end looks

/-! ## Limits -/

/-- A limit of values at hand brings the first of them. -/
theorem Brings.eq_take {eager : Source} (heager : eager.advance = Cursor.read) {count : Eval Nat}
    {left : Nat} {items values : List Value}
    (hbrings : (eager.limited count).Brings s (.atMost left (.values items)) values s') :
    values = items.take left ∧ s' = s := by
  induction left generalizing items values with
  | zero =>
      rcases values with _ | ⟨value, rest⟩
      · exact ⟨rfl, hbrings.2.symm⟩
      · cases hbrings.1
  | succ left ih =>
      have hpull : ∀ items : List Value, (eager.limited count).advance
          (.atMost (left + 1) (.values items)) s =
            ⟨(items.head?.map .ok, .atMost left (.values items.tail)), s, []⟩ := by
        intro items
        show (eager.advance (.values items) >>= _ : Action (Option Item × Cursor)) s = _
        rw [heager]
        cases items <;> rfl
      rcases values with _ | ⟨value, rest⟩ <;> rw [Brings, hpull] at hbrings
      · obtain ⟨hnone, hstate⟩ := hbrings
        rcases items with _ | ⟨item, items⟩
        · exact ⟨rfl, hstate.symm⟩
        · cases hnone
      · obtain ⟨hitem, hrest⟩ := hbrings
        rcases items with _ | ⟨item, items⟩
        · cases hitem
        · obtain ⟨rfl, rfl⟩ := ih hrest
          cases hitem
          exact ⟨rfl, rfl⟩

/-- A limit of values that are delivered delivers the first of them. -/
theorem Delivers.limited {lazy : Source} (count : Eval Nat) {left : Nat} {cursor : Cursor}
    {items : List Value} (h : lazy.Delivers owns t cursor items) :
    (lazy.limited count).Delivers owns t (.atMost left cursor) (items.take left) := by
  induction left generalizing t cursor items with
  | zero => exact Action.settles_pure fun _ _ => rfl
  | succ left ih =>
      refine Action.Settles.bind id h fun ⟨item, inner⟩ t₁ _ hpulled => ?_
      rcases items with _ | ⟨value, rest⟩
      · obtain rfl : item = none := hpulled
        exact Action.settles_pure fun _ _ => rfl
      · obtain ⟨hitem, hinner⟩ := hpulled
        obtain rfl : item = some (.ok value) := hitem
        exact Action.settles_pure fun t ht => ⟨rfl, (ih hinner).within ht⟩

/-! ## Handing a sequence over -/

/-- A reader outside sees the values that are delivered, and wherever it stops, the state is akin to
the one before, and is the one before if the cursor does not own the working set. -/
theorem Delivers.pullsWithin {lazy : Source} (hlazy : lazy.Descends) {fuel : Nat} {cursor : Cursor}
    {values : List Value} (h : lazy.Delivers owns s cursor values) (ht : s.Within owns t)
    (hfuel : cursor.bound t < fuel) :
    (tapeOf (lazy.pullsWithin fuel cursor t)).items = values.map .ok ∧
      ∀ made, s.Akin (stateAfter t (lazy.pullsWithin fuel cursor t) made) ∧
        (owns = false → stateAfter t (lazy.pullsWithin fuel cursor t) made = t) := by
  induction values generalizing fuel cursor s t with
  | nil =>
      obtain ⟨fuel, rfl⟩ : ∃ n, fuel = n + 1 := ⟨fuel - 1, by omega⟩
      have hpull := h t ht
      unfold Source.pullsWithin
      generalize lazy.advance cursor t = o at hpull ⊢
      obtain ⟨⟨item, inner⟩, after, trace⟩ := o
      obtain ⟨hakin, hunchanged, hend⟩ := hpull
      obtain rfl : item = none := hend
      refine ⟨rfl, fun made => ?_⟩
      rcases made with _ | made
      · rw [stateAfter_zero]
        exact ⟨ht.akin, fun _ => rfl⟩
      · simp only [stateAfter_cons, Option.isSome_none, Bool.false_eq_true, if_false,
          stateAfter_nil]
        exact ⟨hakin, hunchanged⟩
  | cons value rest ih =>
      obtain ⟨fuel, rfl⟩ : ∃ n, fuel = n + 1 := ⟨fuel - 1, by omega⟩
      have hpull := h t ht
      have hdescends := hlazy cursor t
      unfold Source.pullsWithin
      generalize lazy.advance cursor t = o at hpull hdescends ⊢
      obtain ⟨⟨item, inner⟩, after, trace⟩ := o
      obtain ⟨hakin, hunchanged, hitem, hinner⟩ := hpull
      obtain rfl : item = some (.ok value) := hitem
      have hlt : inner.bound after < cursor.bound t := hdescends _ rfl
      have hleft : inner.bound after < fuel := Nat.lt_of_lt_of_le hlt (Nat.le_of_lt_succ hfuel)
      obtain ⟨hitems, hstates⟩ := ih hinner (.refl owns after) hleft
      simp only [Option.isSome_some, if_true, tapeOf, Tape.items, List.map_cons]
      refine ⟨congrArg _ hitems, fun made => ?_⟩
      rcases made with _ | made
      · rw [stateAfter_zero]
        exact ⟨ht.akin, fun _ => rfl⟩
      · obtain ⟨hlater, hsame⟩ := hstates made
        rw [stateAfter_cons]
        exact ⟨hakin.trans hlater, fun howns => (hsame howns).trans (hunchanged howns)⟩

end Source

/-- What collecting query objects answer depends on the items of their input only, neither on the
events of pulls nor on where pulls stop leaving events. -/
def Registry.AnswersByItems (queries : Registry) : Prop :=
  ∀ name perform, queries.sequence name = .collecting perform →
    ∀ tape tape' : Tape, tape.items = tape'.items → (perform tape).result = (perform tape').result

namespace Source

/-- Handing values at hand over leaves the state alone, and the reader meets the values. -/
theorem exists_tape_of_handOver {eager : Source} (heager : eager.advance = Cursor.read)
    {perform : Tape → Reading (List Value)} {items answer : List Value}
    (hanswer : (eager.handOver perform (.values items)).Ends s answer s') :
    s' = s ∧ ∃ tape : Tape, tape.items = items.map .ok ∧ (perform tape).result = .ok answer := by
  have hvalues := delivers_values (fun _ => by rw [heager]) false s items
  have hdescends := descends_of_advance_eq_read heager
  obtain ⟨hitems, hstates⟩ := hvalues.pullsWithin hdescends (.refl false s) (Nat.lt_succ_self _)
  obtain ⟨trace, hanswer⟩ := hanswer
  rw [run_handOver] at hanswer
  have hstate := congrArg Outcome.state hanswer
  dsimp only at hstate
  rw [(hstates _).2 rfl] at hstate
  exact ⟨hstate.symm, _, hitems, congrArg Outcome.value hanswer⟩

/-- **Handing over**: a query object whose answer depends on the items of its input only gives the
same answer for values at hand and for values that are delivered as it pulls. -/
theorem serves_handOver {queries : Registry} (hqueries : queries.AnswersByItems) {name : String}
    {perform : Tape → Reading (List Value)}
    (hperform : queries.sequence name = .collecting perform) {eager lazy : Source}
    (heager : eager.advance = Cursor.read) (hlazy : lazy.Descends) {items answer : List Value}
    (hanswer : (eager.handOver perform (.values items)).Ends s answer s') :
    lazy.Serves items s s' fun whole t cursor =>
      (lazy.handOver perform cursor).Settles whole t fun b _ => b = answer := by
  obtain ⟨rfl, tape, hitems, hresult⟩ := exists_tape_of_handOver heager hanswer
  refine ⟨false, .nothing _, fun {owns whole t cursor} hshares hdelivers u hu => ?_⟩
  have hu' := hu.mono hshares.cursor
  obtain ⟨hitems', hstates⟩ := hdelivers.pullsWithin hlazy hu' (Nat.lt_succ_self _)
  have hsame := hqueries name perform hperform _ _ (hitems'.trans hitems.symm)
  refine ⟨(hstates _).1, fun hwhole => (hstates _).2 ?_, answer, hsame.trans hresult, rfl⟩
  rcases owns with _ | _
  · rfl
  · have hpart := hshares.cursor rfl
    rw [hwhole] at hpart
    cases hpart

end Source

end RecordQuery
