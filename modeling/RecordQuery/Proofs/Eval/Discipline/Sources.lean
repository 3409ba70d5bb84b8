import RecordQuery.Proofs.Eval.Discipline

/-!
# Disciplined sequences

A discipline that holds of a source holds of looking for an item in it, of reading it to the end, of
giving its items to a query object, and of every sequence that a filter makes of it. Loops are
treated by induction on their fuel; no loop needs more than that each pull and each look at an item
is in the discipline.
-/

namespace RecordQuery

variable {queries : Registry} {Allowed : String → String → Prop} {d : Discipline queries Allowed}
  {α β γ : Type}

namespace Source

/-! ## Opening -/

/-- The items of a disciplined value are disciplined. -/
theorem obeys_ofValue {value : Eval Value} (h : Eval.Obeys d value) :
    Source.Obeys d (ofValue value) where
  start := Eval.obeys_bind h fun _ => Eval.obeys_pure _
  advance := Cursor.obeys_read

/-- So is the working set. -/
theorem obeys_everything : Source.Obeys d everything where
  start := Cursor.obeys_takeEverything
  advance := Cursor.obeys_read

/-! ## Looking for an item and reading -/

/-- A rule for values is disciplined on items if it is on values. -/
theorem obeys_onValues {accept : Value → Eval (Option Value)}
    (ha : ∀ value, Eval.Obeys d (accept value)) (item : Item) :
    Action.Obeys d (onValues accept item) := by
  rcases item with e | value
  · exact Action.obeys_pure _
  · refine Action.obeys_bind (Eval.obeys_run (ha value)) fun result => ?_
    rcases result with e | _ | value <;> exact Action.obeys_pure _

variable {source : Source} (h : Source.Obeys d source)

include h

/-- Looking for an item is disciplined for any fuel, by induction on it. -/
theorem Obeys.seekWithin {accept : Item → Action (Option Item)}
    (ha : ∀ item, Action.Obeys d (accept item)) (fuel : Nat) (cursor : Cursor) :
    Action.Obeys d (source.seekWithin accept fuel cursor) := by
  induction fuel generalizing cursor with
  | zero => exact Action.obeys_pure _
  | succ fuel ih =>
      refine Action.obeys_bind (h.advance cursor) fun ⟨item, cursor⟩ => ?_
      rcases item with _ | item
      · exact Action.obeys_pure _
      · refine Action.obeys_bind (ha item) fun accepted => ?_
        rcases accepted with _ | item
        · exact ih cursor
        · exact Action.obeys_pure _

/-- So it is for the fuel that it has. -/
theorem Obeys.seek {accept : Item → Action (Option Item)}
    (ha : ∀ item, Action.Obeys d (accept item)) (cursor : Cursor) :
    Action.Obeys d (source.seek accept cursor) :=
  fun state => h.seekWithin ha _ cursor state

/-- Reading is disciplined for any fuel, by induction on it. -/
theorem Obeys.readWithin {visit : β → Value → Eval (Progress β γ)} {finish : β → γ}
    (hv : ∀ gathered value, Eval.Obeys d (visit gathered value)) (fuel : Nat) (cursor : Cursor)
    (gathered : β) : Eval.Obeys d (source.readWithin visit finish fuel cursor gathered) := by
  induction fuel generalizing cursor gathered with
  | zero => exact Eval.obeys_pure _
  | succ fuel ih =>
      refine Eval.obeys_bind (Eval.obeys_ofAction (h.advance cursor)) fun ⟨item, cursor⟩ => ?_
      rcases item with _ | e | value
      · exact Eval.obeys_pure _
      · exact Eval.obeys_throw e
      · refine Eval.obeys_bind (hv gathered value) fun progress => ?_
        rcases progress with gathered | result
        · exact ih cursor gathered
        · exact Eval.obeys_pure _

/-- So it is for the fuel that it has. -/
theorem Obeys.readFrom {visit : β → Value → Eval (Progress β γ)} {finish : β → γ}
    (hv : ∀ gathered value, Eval.Obeys d (visit gathered value)) (cursor : Cursor) (gathered : β) :
    Eval.Obeys d (source.readFrom visit finish cursor gathered) :=
  fun state => h.readWithin hv _ cursor gathered state

/-- Opening and reading is disciplined. -/
theorem Obeys.read {visit : β → Value → Eval (Progress β γ)} {finish : β → γ}
    (hv : ∀ gathered value, Eval.Obeys d (visit gathered value)) (gathered : β) :
    Eval.Obeys d (source.read visit finish gathered) :=
  Eval.obeys_bind h.start fun cursor => h.readFrom hv cursor gathered

/-- Reading all values from a cursor on is disciplined. -/
theorem Obeys.drain (cursor : Cursor) : Eval.Obeys d (source.drain cursor) :=
  h.readFrom (fun _ _ => Eval.obeys_pure _) cursor []

/-- So is reading all values. -/
theorem Obeys.collect : Eval.Obeys d source.collect :=
  Eval.obeys_bind h.start h.drain

/-! ## Giving a query object what it asks for -/

section consult

variable {inquiry : Inquiry α} (hi : ∀ {trace : Trace}, inquiry.Leaves trace →
  ∀ state, d.Holds state trace state)

include hi

omit h in
/-- Telling a query object of the end is a step of the object. -/
theorem obeys_tellEnd (heard : List Item) (exchange : Exchange) (cursor : Cursor) :
    Action.Obeys d (tellEnd inquiry heard exchange cursor) :=
  Action.obeys_bind (Action.obeys_leave (hi (.last rfl))) fun _ => Action.obeys_pure _

/-- Giving a query object what it asks for is disciplined for any fuel, by induction on it: the
steps of the object and the pulls alternate. -/
theorem Obeys.consultWithin (fuel : Nat) (heard : List Item) (exchange : Exchange)
    (cursor : Cursor) :
    Action.Obeys d (source.consultWithin inquiry fuel heard exchange cursor) := by
  induction fuel generalizing heard exchange cursor with
  | zero => exact obeys_tellEnd hi heard exchange cursor
  | succ fuel ih =>
      unfold Source.consultWithin
      rcases hnext : inquiry.next heard with trace | ⟨trace, answer⟩
      · refine Action.obeys_bind (Action.obeys_leave (hi (.ask hnext))) fun _ => ?_
        refine Action.obeys_bind (h.advance cursor) fun ⟨item, cursor⟩ => ?_
        rcases item with _ | item
        · exact obeys_tellEnd hi heard exchange.close cursor
        · exact ih (item :: heard) (exchange.receive item) cursor
      · exact Action.obeys_bind (Action.obeys_leave (hi (.answer hnext))) fun _ =>
          Action.obeys_pure _

/-- So it is for the fuel that it has. -/
theorem Obeys.consult (exchange : Exchange) (cursor : Cursor) :
    Action.Obeys d (source.consult inquiry exchange cursor) :=
  fun state => h.consultWithin hi _ [] exchange cursor state

end consult

/-! ## Handing a sequence over -/

/-- The pulls that lead to the end are in the relation one after the other. -/
theorem Obeys.linked_pullsWithin (fuel : Nat) (cursor : Cursor) (state : State) :
    Linked d.Holds state (source.pullsWithin fuel cursor state) := by
  induction fuel generalizing cursor state with
  | zero => trivial
  | succ fuel ih =>
      refine ⟨h.advance cursor state, ?_⟩
      split
      · exact ih _ _
      · trivial

/-- A collecting query object obeys whatever sequence it is given. -/
theorem Obeys.handOver {name : String} {perform : Tape → Reading (List Value)}
    (hp : queries.sequence name = .collecting perform) (cursor : Cursor) :
    Eval.Obeys d (source.handOver perform cursor) :=
  fun state => d.performing hp state _ (h.linked_pullsWithin _ cursor state)

/-! ## Filters -/

/-- The items that a disciplined rule makes of disciplined ones are disciplined. -/
theorem Obeys.mapping {accept : Item → Action (Option Item)}
    (ha : ∀ item, Action.Obeys d (accept item)) : Source.Obeys d (source.mapping accept) where
  start := Eval.obeys_map _ h.start
  advance cursor := by
    rcases cursor with _ | _ | inner | _ | _ | _
    case derived => exact Action.obeys_bind (h.seek ha inner) fun _ => Action.obeys_pure _
    all_goals exact Action.obeys_pure _

/-- So are first occurrences. -/
theorem Obeys.unique : Source.Obeys d source.unique where
  start := Eval.obeys_map _ h.start
  advance cursor := by
    rcases cursor with _ | _ | _ | ⟨seen, inner⟩ | _ | _
    case unseen =>
      refine Action.obeys_bind (h.seek (obeys_onValues fun _ => Eval.obeys_pure _) inner)
        fun ⟨item, inner⟩ => ?_
      rcases item with _ | e | value <;> exact Action.obeys_pure _
    all_goals exact Action.obeys_pure _

/-- So are the first so many items. -/
theorem Obeys.limited {count : Eval Nat} (hc : Eval.Obeys d count) :
    Source.Obeys d (source.limited count) where
  start := by
    refine Eval.obeys_bind hc fun count => ?_
    refine Eval.obeys_bind h.start fun inner => ?_
    exact Eval.obeys_pure _
  advance cursor := by
    rcases cursor with _ | _ | _ | _ | ⟨left, inner⟩ | _
    case atMost =>
      rcases left with _ | left
      · exact Action.obeys_pure _
      · exact Action.obeys_bind (h.advance inner) fun _ => Action.obeys_pure _
    all_goals exact Action.obeys_pure _

end Source

/-! ## Lambdas -/

namespace Binder

/-- Applying a disciplined lambda is disciplined. -/
theorem Obeys.apply {binder : Binder} (h : Binder.Obeys d binder) (argument : Value) :
    Eval.Obeys d (binder.apply argument) :=
  Eval.obeys_withBinding _ _ h

/-- So is a test by it. -/
theorem Obeys.test {binder : Binder} (h : Binder.Obeys d binder) (argument : Value) :
    Eval.Obeys d (binder.test argument) :=
  Eval.obeys_map _ (h.apply argument)

/-- So is a test by several lambdas. -/
theorem Obeys.testAll {binders : List Binder} (h : ∀ binder ∈ binders, Binder.Obeys d binder)
    (argument : Value) : Eval.Obeys d (testAll binders argument) := by
  induction binders with
  | nil => exact Eval.obeys_pure _
  | cons binder rest ih =>
      refine Eval.obeys_bind ((h binder List.mem_cons_self).test argument) fun passes => ?_
      split
      · exact ih fun binder hb => h binder (List.mem_cons_of_mem _ hb)
      · exact Eval.obeys_pure _

end Binder

namespace Source

variable {source : Source} (h : Source.Obeys d source)

include h

/-- Selections and rejections by disciplined lambdas are disciplined. -/
theorem Obeys.sifted (keep : Bool) {binder : Binder} (hb : Binder.Obeys d binder) :
    Source.Obeys d (source.sifted keep binder) := by
  refine h.mapping (obeys_onValues fun value => ?_)
  refine Eval.obeys_bind (hb.test value) fun passes => ?_
  exact Eval.obeys_pure _

/-- So are the results of a lambda. -/
theorem Obeys.mapped {binder : Binder} (hb : Binder.Obeys d binder) :
    Source.Obeys d (source.mapped binder) := by
  refine h.mapping (obeys_onValues fun value => ?_)
  exact Eval.obeys_map _ (hb.apply value)

/-- Grouping by disciplined lambdas is disciplined. -/
theorem Obeys.grouped {binders : List Binder} (hb : ∀ binder ∈ binders, Binder.Obeys d binder) :
    Eval.Obeys d (source.grouped binders) := by
  refine h.read (fun winners value => ?_) []
  refine Eval.obeys_bind (Binder.Obeys.testAll hb value) fun passes => ?_
  exact Eval.obeys_pure _

/-- So are the greatest versions as a sequence. -/
theorem Obeys.latest {binders : List Binder} (hb : ∀ binder ∈ binders, Binder.Obeys d binder) :
    Source.Obeys d (source.latest binders) :=
  obeys_ofValue (Eval.obeys_map _ (h.grouped hb))

end Source

end RecordQuery
