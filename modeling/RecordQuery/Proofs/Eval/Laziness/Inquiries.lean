import RecordQuery.Proofs.Eval.Laziness.Sources

/-!
# Query objects that are given values at hand, and values that are delivered

A streaming query object asks for items, one by one, and its answers depend on the items that it was
given only. So it comes to the same answer from values at hand as from values that are delivered as
it asks for them (`Source.Supplies.consult`), and makes the same items of them
(`Source.Makes.delivers`). Nothing runs between its pulls, and what it asks for may be less than all
there is.
-/

namespace RecordQuery.Source

variable {α : Type} {owns : Bool} {s s₁ s' t : State}

/-! ## One inquiry -/

/-- What a query object can still be given: values that are delivered, unless it was told of the end
before. -/
def Supplies (source : Source) (owns : Bool) (t : State) (exchange : Exchange) (cursor : Cursor)
    (values : List Value) : Prop :=
  exchange.ended = false → source.Delivers owns t cursor values

/-- A query object that is told of the end has no more to be given. -/
theorem supplies_of_ended {source : Source} {exchange : Exchange} (h : exchange.ended = true)
    (owns : Bool) (t : State) (cursor : Cursor) (values : List Value) :
    source.Supplies owns t exchange cursor values := by
  intro hopen
  rw [h] at hopen
  cases hopen

/-- A query object came to an answer, and the values that are left can still be given to it. -/
def Consulted (source : Source) (owns : Bool) (answer : α) (exchange : Exchange) (rest : List Value)
    (consulted : α × Exchange × Cursor) (t : State) : Prop :=
  consulted.1 = answer ∧ consulted.2.1 = exchange ∧
    source.Supplies owns t exchange consulted.2.2 rest

/-- Told of the end, a query object comes to the same answer wherever it was given its items. -/
theorem settled_tellEnd (source : Source) (owns : Bool) (inquiry : Inquiry α) (heard : List Item)
    {exchange : Exchange} (hended : exchange.ended = true) (cursor : Cursor) (rest : List Value)
    (t : State) :
    (tellEnd inquiry heard exchange cursor t).Settled owns t t
      (source.Consulted owns (inquiry.last heard).2 exchange rest) :=
  ⟨.refl t, fun _ => rfl, rfl, rfl, supplies_of_ended hended owns t cursor rest⟩

section consult

variable {eager lazy : Source} (heager : eager.advance = Cursor.read) (hlazy : lazy.Descends)
  (inquiry : Inquiry α)

include heager hlazy

/-- A query object comes to the same answer from values at hand as from values that are delivered as
it asks for them, by induction on the values: as long as it asks for another one, both have it. -/
theorem Delivers.consultWithin (heard : List Item) (exchange : Exchange) {items : List Value}
    {fuel fuel' : Nat} {cursor : Cursor} (h : lazy.Delivers owns s₁ cursor items)
    (ht : s₁.Within owns t) (hfuel : items.length < fuel) (hfuel' : cursor.bound t < fuel')
    (s : State) :
    ∃ answer exchange' rest trace,
      eager.consultWithin inquiry fuel heard exchange (.values items) s =
        ⟨(answer, exchange', .values rest), s, trace⟩ ∧
      (lazy.consultWithin inquiry fuel' heard exchange cursor t).Settled owns s₁ t
        (lazy.Consulted owns answer exchange' rest) := by
  induction items generalizing fuel fuel' heard exchange cursor s₁ t with
  | nil =>
      obtain ⟨fuel, rfl⟩ : ∃ n, fuel = n + 1 := ⟨fuel - 1, by omega⟩
      obtain ⟨fuel', rfl⟩ : ∃ n, fuel' = n + 1 := ⟨fuel' - 1, by omega⟩
      unfold Source.consultWithin
      rcases inquiry.next heard with trace | ⟨trace, answer⟩
      · have hpull := h t ht
        dsimp only
        rw [Action.leave_bind_apply, Action.leave_bind_apply, Action.bind_eq_after,
          Action.bind_eq_after, heager]
        generalize lazy.advance cursor t = o at hpull ⊢
        obtain ⟨⟨item, inner⟩, after, trace'⟩ := o
        obtain rfl : item = none := hpull.post
        have hended : exchange.close.ended = true := rfl
        have htold := settled_tellEnd lazy owns inquiry heard hended inner [] after
        exact ⟨_, _, [], _, rfl, (hpull.after htold).behind trace⟩
      · exact ⟨_, _, [], _, rfl, ht.akin, fun _ => rfl, rfl, rfl, fun _ => h.within ht⟩
  | cons value items ih =>
      obtain ⟨fuel, rfl⟩ : ∃ n, fuel = n + 1 := ⟨fuel - 1, by omega⟩
      obtain ⟨fuel', rfl⟩ : ∃ n, fuel' = n + 1 := ⟨fuel' - 1, by omega⟩
      unfold Source.consultWithin
      rcases inquiry.next heard with trace | ⟨trace, answer⟩
      · have hpull := h t ht
        have hdescends := hlazy cursor t
        dsimp only
        rw [Action.leave_bind_apply, Action.leave_bind_apply, Action.bind_eq_after,
          Action.bind_eq_after, heager]
        generalize lazy.advance cursor t = o at hpull hdescends ⊢
        obtain ⟨⟨item, inner⟩, after, trace'⟩ := o
        obtain ⟨hitem, hinner⟩ := hpull.post
        obtain rfl : item = some (.ok value) := hitem
        have hlt : inner.bound after < cursor.bound t := hdescends _ rfl
        obtain ⟨answer, exchange', rest, later, heq, hsettled⟩ := ih (.ok value :: heard)
          (exchange.receive (.ok value)) hinner (.refl owns after) (Nat.lt_of_succ_lt_succ hfuel)
          (Nat.lt_of_lt_of_le hlt (Nat.le_of_lt_succ hfuel'))
        refine ⟨answer, exchange', rest, trace ++ later, ?_, (hpull.after hsettled).behind trace⟩
        exact congrArg (Outcome.after trace) heq
      · exact ⟨_, _, value :: items, _, rfl, ht.akin, fun _ => rfl, rfl, rfl, fun _ => h.within ht⟩

/-- So it does for the fuel that there is, whether it was told of the end before or not. -/
theorem Supplies.consult {exchange : Exchange} {cursor : Cursor} {items : List Value}
    (h : lazy.Supplies owns t exchange cursor items) (s : State) :
    ∃ answer exchange' rest trace,
      eager.consult inquiry exchange (.values items) s =
        ⟨(answer, exchange', .values rest), s, trace⟩ ∧
      (lazy.consult inquiry exchange cursor).Settles owns t
        (lazy.Consulted owns answer exchange' rest) := by
  unfold Source.consult
  rcases hended : exchange.ended with _ | _
  · have hfuel : items.length < (Cursor.values items).bound s + 1 := Nat.lt_succ_self _
    have hruns := fun {u : State} (hu : t.Within owns u) =>
      (h hended).consultWithin heager hlazy inquiry [] exchange hu hfuel (Nat.lt_succ_self _) s
    obtain ⟨answer, exchange', rest, trace, heq, -⟩ := hruns (.refl owns t)
    refine ⟨answer, exchange', rest, trace, heq, fun u hu => ?_⟩
    obtain ⟨answer', exchange'', rest', trace', heq', hsettled⟩ := hruns hu
    cases heq.symm.trans heq'
    exact hsettled
  · refine ⟨_, _, items, _, rfl, fun u hu => ?_⟩
    have htold := settled_tellEnd lazy owns inquiry [] hended cursor items u
    exact ⟨hu.akin, fun _ => rfl, htold.post⟩

end consult

/-! ## All items -/

/-- A sequence whose items a query object makes of those of another one. -/
def Makes (outer inner : Source) (width : Nat) (pull : Exchange → Inquiry (Option Item))
    (wrap : Exchange → Cursor → Cursor) : Prop :=
  ∀ exchange cursor, outer.advance (wrap exchange cursor) = (do
    let (item, exchange, cursor) ← inner.consult (pull exchange) exchange cursor
    return ((exchange.handOn width item).1, wrap (exchange.handOn width item).2 cursor))

/-- Handing an item on changes nothing of what a query object can be given. -/
theorem Supplies.handOn {source : Source} {exchange : Exchange} {cursor : Cursor}
    {values : List Value} (h : source.Supplies owns t exchange cursor values) (width : Nat)
    (answer : Option Item) :
    source.Supplies owns t (exchange.handOn width answer).2 cursor values := by
  have hended : (exchange.handOn width answer).2.ended = exchange.ended := by
    rcases answer with _ | item
    · rfl
    · unfold Exchange.handOn
      dsimp only
      split <;> rfl
  exact fun hopen => h (hended ▸ hopen)

section makes

variable {eager lazy outer outer' : Source} {width : Nat}
  {pull : Exchange → Inquiry (Option Item)} {wrap wrap' : Exchange → Cursor → Cursor}

/-- A query object that is given values at hand leaves the state alone on the way to an item, and
what it makes later it makes of the values that are left. -/
theorem Makes.brings_iff (hE : outer.Makes eager width pull wrap) {exchange exchange' : Exchange}
    {items rest values : List Value} {answer : Option Item} {trace : Trace}
    (heq : eager.consult (pull exchange) exchange (.values items) s =
      ⟨(answer, exchange', .values rest), s, trace⟩) :
    outer.Brings s (wrap exchange (.values items)) values s' ↔
      match values with
      | [] => (exchange'.handOn width answer).1 = none ∧ s = s'
      | value :: later => (exchange'.handOn width answer).1 = some (.ok value) ∧
        outer.Brings s (wrap (exchange'.handOn width answer).2 (.values rest)) later s' := by
  have hpull : outer.advance (wrap exchange (.values items)) s =
      ⟨((exchange'.handOn width answer).1,
        wrap (exchange'.handOn width answer).2 (.values rest)), s, trace ++ []⟩ := by
    rw [hE, Action.bind_eq_after, heq]
    rfl
  rcases values with _ | ⟨value, later⟩ <;> rw [Brings, hpull]

/-- **Streaming**: the items that a query object makes of values at hand are those that it makes of
values that are delivered as it asks for them. By induction on the items that it makes. -/
theorem Makes.delivers (hE : outer.Makes eager width pull wrap)
    (hL : outer'.Makes lazy width pull wrap') (heager : eager.advance = Cursor.read)
    (hlazy : lazy.Descends) {exchange : Exchange} {cursor : Cursor} {items values : List Value}
    (h : lazy.Supplies owns t exchange cursor items)
    (hbrings : outer.Brings s (wrap exchange (.values items)) values s') :
    s' = s ∧ outer'.Delivers owns t (wrap' exchange cursor) values := by
  induction values generalizing exchange cursor items t with
  | nil =>
      obtain ⟨answer, exchange', rest, trace, heq, hsettles⟩ :=
        h.consult heager hlazy (pull exchange) s
      obtain ⟨hnone, rfl⟩ := (hE.brings_iff heq).mp hbrings
      refine ⟨rfl, ?_⟩
      show Action.Settles _ _ (outer'.advance _) _
      rw [hL]
      refine Action.Settles.bind id hsettles fun ⟨_, _, inner⟩ u _ ⟨hanswer, hexchange, _⟩ => ?_
      subst hanswer hexchange
      exact Action.settles_pure fun _ _ => hnone
  | cons value values ih =>
      obtain ⟨answer, exchange', rest, trace, heq, hsettles⟩ :=
        h.consult heager hlazy (pull exchange) s
      obtain ⟨hitem, hlater⟩ := (hE.brings_iff heq).mp hbrings
      have hsupplies := (hsettles t (.refl owns t)).post.2.2.handOn width answer
      refine ⟨(ih hsupplies hlater).1, ?_⟩
      show Action.Settles _ _ (outer'.advance _) _
      rw [hL]
      refine Action.Settles.bind id hsettles fun ⟨_, _, inner⟩ u _ ⟨hanswer, hexchange, hleft⟩ => ?_
      subst hanswer hexchange
      refine Action.settles_pure fun v hv => ⟨hitem, ?_⟩
      exact Delivers.within (ih (hleft.handOn width _) hlater).2 hv

/-- A query object that asks for items before it opens, and makes its own of those that are left: it
opens with the same answer, and makes the same items, if the values are delivered as it asks. -/
theorem Makes.serves (hE : outer.Makes eager width pull wrap)
    (hL : outer'.Makes lazy width pull wrap') (heager : eager.advance = Cursor.read)
    (hlazy : lazy.Descends) (opening : Inquiry α) {items values : List Value} {opened : α}
    {exchange : Exchange} {inner : Cursor}
    (hopened : (eager.consult opening .initial (.values items) s).value = (opened, exchange, inner))
    (hbrings : outer.Brings (eager.consult opening .initial (.values items) s).state
      (wrap exchange inner) values s') :
    lazy.Serves items s s' fun whole t cursor =>
      (lazy.consult opening .initial cursor).Settles whole t fun consulted u =>
        consulted.1 = opened ∧
          outer'.Delivers whole u (wrap' consulted.2.1 consulted.2.2) values := by
  have hhand : eager.Supplies false s .initial (.values items) items :=
    fun _ => delivers_values (fun _ => by rw [heager]) false s items
  have hdescends := descends_of_advance_eq_read heager
  obtain ⟨answer, exchange', rest, trace, heq, hsettles⟩ := hhand.consult heager hdescends opening s
  rw [heq] at hopened hbrings
  cases hopened
  have hleft := (hsettles s (.refl false s)).post.2.2
  obtain ⟨rfl, -⟩ := hE.delivers hE heager hdescends hleft hbrings
  refine ⟨false, .nothing _, fun {owns whole t cursor} hshares hdelivers => ?_⟩
  have hsupplies : lazy.Supplies whole t .initial cursor items :=
    fun _ => hdelivers.weaken hshares.cursor
  obtain ⟨answer, exchange, rest, trace, heq', hsettles'⟩ :=
    hsupplies.consult heager hlazy opening s'
  cases heq.symm.trans heq'
  refine Action.Settles.mono hsettles' fun ⟨_, _, input⟩ u ⟨hanswer, hexchange, hleft⟩ => ?_
  subst hanswer hexchange
  exact ⟨rfl, (hE.delivers hL heager hlazy hleft hbrings).2⟩

end makes

end RecordQuery.Source
