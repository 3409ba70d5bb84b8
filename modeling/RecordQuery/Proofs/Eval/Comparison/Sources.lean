import Mathlib.Data.List.Forall2
import RecordQuery.Proofs.Eval.Comparison
import RecordQuery.Proofs.Eval.Discipline

/-!
# Sequences side by side

Sequences that are alike are searched, read and handed over alike, and every filter makes sequences
that are alike of them. The loops run in step: both take as many rounds, since the bounds of what is
left are equal on either side, and the claims are proved by induction on the rounds.
-/

namespace RecordQuery

variable {queries : Registry} {c : Comparison queries} {B : Bindings.Relation} {α β γ : Type}

namespace Source

/-! ## Opening -/

/-- The items of values that are alike are alike. -/
theorem alike_ofValue {value value' : Eval Value}
    (h : Eval.Alike c B (fun _ => True) value value') :
    Source.Alike c B (ofValue value) (ofValue value') where
  start := Eval.alike_bind h fun _ _ => Eval.alike_pure (Comparison.admits_values _)
  advance _ hc := Cursor.alike_read hc

/-- Taking the working set is alike where it comes to the same, and where having taken it is
expected. -/
theorem alike_everything (htakes : c.sharing.TakesAlike)
    (hconsumed : c.Expected (.evaluation Expr.everythingName 0 .consumed)) :
    Source.Alike c B everything everything where
  start := Cursor.alike_takeEverything htakes hconsumed
  advance _ hc := Cursor.alike_read hc

/-! ## Looking for an item and reading -/

/-- A rule for values is alike on items that are admissible. -/
theorem alike_onValues {accept accept' : Value → Eval (Option Value)}
    (ha : ∀ value, Eval.Alike c B (fun _ => True) (accept value) (accept' value)) {item : Item}
    (hitem : c.Admissible (some item)) :
    Action.Alike c B c.Admissible (onValues accept item) (onValues accept' item) := by
  rcases item with e | value
  · exact Action.alike_pure hitem
  · refine Action.alike_bind (ha value) fun result hresult => ?_
    rcases result with e | _ | value
    · refine Action.alike_pure ?_
      rintro e' ⟨⟩
      exact hresult
    · exact Action.alike_pure Comparison.admissible_none
    · exact Action.alike_pure (Comparison.admissible_ok value)

variable {source source' : Source} (h : Source.Alike c B source source')

include h

section seek

variable {accept accept' : Item → Action (Option Item)}
  (ha : ∀ item, c.Admissible (some item) →
    Action.Alike c B c.Admissible (accept item) (accept' item))

include ha

/-- Looking for an item is alike for any fuel. -/
theorem Alike.seekWithin (fuel : Nat) {cursor : Cursor} (hc : c.Admits cursor) :
    Action.Alike c B c.Pulled (source.seekWithin accept fuel cursor)
      (source'.seekWithin accept' fuel cursor) := by
  induction fuel generalizing cursor with
  | zero => exact Action.alike_pure ⟨Comparison.admissible_none, hc⟩
  | succ fuel ih =>
      refine Action.alike_bind (h.advance cursor hc) fun ⟨item, cursor⟩ ⟨hitem, hc⟩ => ?_
      rcases item with _ | item
      · exact Action.alike_pure ⟨Comparison.admissible_none, hc⟩
      · refine Action.alike_bind (ha item hitem) fun accepted haccepted => ?_
        rcases accepted with _ | item
        · exact ih hc
        · exact Action.alike_pure ⟨haccepted, hc⟩

/-- Looking for an item is alike: the bounds on both sides are the same. -/
theorem Alike.seek {cursor : Cursor} (hc : c.Admits cursor) :
    Action.Alike c B c.Pulled (source.seek accept cursor) (source'.seek accept' cursor) := by
  intro s s' hs
  unfold Source.seek
  rw [hs.bound_eq hc]
  exact h.seekWithin ha _ hc s s' hs

end seek

section read

variable {visit visit' : β → Value → Eval (Progress β γ)} {finish : β → γ}
  (hv : ∀ gathered value,
    Eval.Alike c B (fun _ => True) (visit gathered value) (visit' gathered value))

include hv

/-- Reading is alike for any fuel, by induction on it. -/
theorem Alike.readWithin (fuel : Nat) {cursor : Cursor} (hc : c.Admits cursor) (gathered : β) :
    Eval.Alike c B (fun _ => True) (source.readWithin visit finish fuel cursor gathered)
      (source'.readWithin visit' finish fuel cursor gathered) := by
  induction fuel generalizing cursor gathered with
  | zero => exact Eval.alike_pure trivial
  | succ fuel ih =>
      refine Eval.alike_bind (Eval.alike_ofAction (h.advance cursor hc))
        fun ⟨item, cursor⟩ ⟨hitem, hc⟩ => ?_
      rcases item with _ | e | value
      · exact Eval.alike_pure trivial
      · exact Eval.alike_throw (hitem e rfl)
      · refine Eval.alike_bind (hv gathered value) fun progress _ => ?_
        rcases progress with gathered | result
        · exact ih hc gathered
        · exact Eval.alike_pure trivial

/-- Reading from a cursor is alike. -/
theorem Alike.readFrom {cursor : Cursor} (hc : c.Admits cursor) (gathered : β) :
    Eval.Alike c B (fun _ => True) (source.readFrom visit finish cursor gathered)
      (source'.readFrom visit' finish cursor gathered) := by
  intro s s' hs
  have hread : Eval.Alike c B (fun _ => True)
      (source.readWithin visit finish (cursor.bound s + 1) cursor gathered)
      (source'.readWithin visit' finish (cursor.bound s + 1) cursor gathered) :=
    h.readWithin hv _ hc gathered
  show c.Meets s s' _ _
    ((source'.readWithin visit' finish (cursor.bound s' + 1) cursor gathered).run s')
  rw [hs.bound_eq hc]
  exact hread s s' hs

/-- Opening and reading is alike. -/
theorem Alike.read (gathered : β) :
    Eval.Alike c B (fun _ => True) (source.read visit finish gathered)
      (source'.read visit' finish gathered) :=
  Eval.alike_bind h.start fun _ hc => h.readFrom hv hc gathered

end read

/-- Reading all values from a cursor on is alike. -/
theorem Alike.drain {cursor : Cursor} (hc : c.Admits cursor) :
    Eval.Alike c B (fun _ => True) (source.drain cursor) (source'.drain cursor) :=
  h.readFrom (fun _ _ => Eval.alike_pure trivial) hc []

/-- So is reading all values. -/
theorem Alike.collect : Eval.Alike c B (fun _ => True) source.collect source'.collect :=
  Eval.alike_bind h.start fun _ hc => h.drain hc

/-! ## Giving a query object what it asks for -/

section consult

variable {inquiry : Inquiry α} {Holds : α → Prop}
  (hi : ∀ given answer, inquiry.Answers given answer →
    (∀ item ∈ given, c.Admissible (some item)) → Holds answer)

include hi

omit h in
/-- A query object that is told of the end answers alike. -/
theorem alike_tellEnd {heard : List Item} (hheard : ∀ item ∈ heard, c.Admissible (some item))
    (exchange : Exchange) {cursor : Cursor} (hc : c.Admits cursor) :
    Action.Alike c B (c.Consulted Holds) (tellEnd inquiry heard exchange cursor)
      (tellEnd inquiry heard exchange cursor) := by
  refine Action.alike_bind (Action.alike_leave _) fun _ _ => ?_
  exact Action.alike_pure ⟨hi _ _ (.last rfl) hheard, hc⟩

/-- Giving a query object what it asks for is alike for any fuel: it is given the same items. -/
theorem Alike.consultWithin (fuel : Nat) {heard : List Item}
    (hheard : ∀ item ∈ heard, c.Admissible (some item)) (exchange : Exchange) {cursor : Cursor}
    (hc : c.Admits cursor) :
    Action.Alike c B (c.Consulted Holds)
      (source.consultWithin inquiry fuel heard exchange cursor)
      (source'.consultWithin inquiry fuel heard exchange cursor) := by
  induction fuel generalizing heard exchange cursor with
  | zero => exact alike_tellEnd hi hheard exchange hc
  | succ fuel ih =>
      unfold Source.consultWithin
      rcases hnext : inquiry.next heard with trace | ⟨trace, answer⟩
      · refine Action.alike_bind (Action.alike_leave trace) fun _ _ => ?_
        refine Action.alike_bind (h.advance cursor hc) fun ⟨item, cursor⟩ ⟨hitem, hc⟩ => ?_
        rcases item with _ | item
        · exact alike_tellEnd hi hheard exchange.close hc
        · exact ih (List.forall_mem_cons.mpr ⟨hitem, hheard⟩) (exchange.receive item) hc
      · refine Action.alike_bind (Action.alike_leave trace) fun _ _ => ?_
        exact Action.alike_pure ⟨hi _ _ (.next hnext) hheard, hc⟩

/-- Giving a query object what it asks for is alike: the bounds on both sides are the same. -/
theorem Alike.consult (exchange : Exchange) {cursor : Cursor} (hc : c.Admits cursor) :
    Action.Alike c B (c.Consulted Holds) (source.consult inquiry exchange cursor)
      (source'.consult inquiry exchange cursor) := by
  intro s s' hs
  unfold Source.consult
  rw [hs.bound_eq hc]
  exact h.consultWithin hi _ (List.forall_mem_nil _) exchange hc s s' hs

end consult

/-! ## Handing a sequence over -/

/-- A reader outside sees the same tape on both sides. Its failures are expected, and wherever the
reader stops, the bindings are released and the working sets stand to one another as they should. -/
theorem Alike.pullsWithin (fuel : Nat) {cursor : Cursor} (hc : c.Admits cursor) {s s' : State}
    (hs : c.Related B s s') :
    tapeOf (source'.pullsWithin fuel cursor s') = tapeOf (source.pullsWithin fuel cursor s) ∧
      (∀ e, .error e ∈ (tapeOf (source.pullsWithin fuel cursor s)).items → c.Expected e) ∧
      ∀ made, (stateAfter s (source.pullsWithin fuel cursor s) made).bindings = s.bindings ∧
        (stateAfter s' (source'.pullsWithin fuel cursor s') made).bindings = s'.bindings ∧
        c.Beside (stateAfter s (source.pullsWithin fuel cursor s) made)
          (stateAfter s' (source'.pullsWithin fuel cursor s') made) := by
  induction fuel generalizing cursor s s' with
  | zero =>
      refine ⟨rfl, fun e he => (by cases he), fun made => ?_⟩
      simp only [Source.pullsWithin, stateAfter_nil]
      exact ⟨trivial, trivial, hs.workingSets⟩
  | succ fuel ih =>
      have hpull := h.advance cursor hc s s' hs
      unfold Source.pullsWithin
      generalize source.advance cursor s = o, source'.advance cursor s' = o' at hpull ⊢
      obtain ⟨⟨item, inner⟩, after, trace⟩ := o
      obtain ⟨pulled, after', trace'⟩ := o'
      obtain rfl : pulled = (item, inner) := hpull.value
      obtain rfl : trace' = trace := hpull.trace
      obtain ⟨hitem, hinner⟩ := hpull.holds
      rcases item with _ | item
      · refine ⟨rfl, fun e he => (by cases he), fun made => ?_⟩
        rcases made with _ | made
        · simp only [stateAfter_zero]
          exact ⟨trivial, trivial, hs.workingSets⟩
        · simp only [stateAfter_cons, Option.isSome_none, Bool.false_eq_true, if_false,
            stateAfter_nil]
          exact ⟨hpull.left, hpull.right, hpull.workingSets⟩
      · obtain ⟨htape, hexpected, hstates⟩ := ih hinner (hpull.related hs)
        simp only [Option.isSome_some, if_true, tapeOf, Tape.items, List.mem_cons]
        refine ⟨congrArg _ htape, ?_, fun made => ?_⟩
        · rintro e (rfl | he)
          · exact hitem e rfl
          · exact hexpected e he
        · rcases made with _ | made
          · simp only [stateAfter_zero]
            exact ⟨trivial, trivial, hs.workingSets⟩
          · obtain ⟨hleft, hright, hbeside⟩ := hstates made
            simp only [stateAfter_cons]
            exact ⟨hleft.trans hpull.left, hright.trans hpull.right, hbeside⟩

/-- A collecting query object makes the same of sequences that are alike. What it fails with came
with an item, or the object brought it up by itself. -/
theorem Alike.handOver {name : String} {perform : Tape → Reading (List Value)}
    (hq : queries.sequence name = .collecting perform) {cursor : Cursor} (hc : c.Admits cursor) :
    Eval.Alike c B (fun _ => True) (source.handOver perform cursor)
      (source'.handOver perform cursor) := by
  intro s s' hs
  obtain ⟨htape, hexpected, hstates⟩ := h.pullsWithin (cursor.bound s + 1) hc hs
  let tape := tapeOf (source.pullsWithin (cursor.bound s + 1) cursor s)
  obtain ⟨hleft, hright, hbeside⟩ := hstates (tape.length - (perform tape).rest.length)
  have hresult : c.Succeeds (fun _ => True) (perform tape).result := by
    rcases hr : (perform tape).result with e | values
    · by_cases hcarried : .error e ∈ tape.items
      · exact hexpected e hcarried
      · exact c.expected_of_raises (.perform hq hr hcarried)
    · trivial
  show c.Meets s s' _ ((source.handOver perform cursor).run s)
    ((source'.handOver perform cursor).run s')
  rw [run_handOver, run_handOver, hs.bound_eq hc]
  dsimp only
  rw [htape]
  exact ⟨rfl, hresult, rfl, hleft, hright, hbeside⟩

/-! ## Filters -/

/-- The items that rules make of others are alike, if the rules are on what is admissible. -/
theorem Alike.mapping {accept accept' : Item → Action (Option Item)}
    (ha : ∀ item, c.Admissible (some item) →
      Action.Alike c B c.Admissible (accept item) (accept' item)) :
    Source.Alike c B (source.mapping accept) (source'.mapping accept') where
  start := Eval.alike_map _ h.start fun _ hc => hc
  advance cursor hc := by
    rcases cursor with _ | _ | inner | _ | _ | _
    case derived =>
      have hinner : c.Admits inner := hc
      exact Action.alike_bind (h.seek ha hinner) fun _ hpulled => Action.alike_pure hpulled
    all_goals exact Action.alike_pure ⟨Comparison.admissible_none, hc⟩

/-- First occurrences are alike. -/
theorem Alike.unique : Source.Alike c B source.unique source'.unique where
  start := Eval.alike_map _ h.start fun _ hc => hc
  advance cursor hc := by
    rcases cursor with _ | _ | _ | ⟨seen, inner⟩ | _ | _
    case unseen =>
      have hinner : c.Admits inner := hc
      refine Action.alike_bind
        (h.seek (fun item hitem => alike_onValues (fun _ => Eval.alike_pure trivial) hitem) hinner)
        fun ⟨item, inner⟩ ⟨hitem, hinner⟩ => ?_
      rcases item with _ | e | value <;> exact Action.alike_pure ⟨hitem, hinner⟩
    all_goals exact Action.alike_pure ⟨Comparison.admissible_none, hc⟩

/-- The first so many items are alike, if their numbers are. -/
theorem Alike.limited {count count' : Eval Nat}
    (hcount : Eval.Alike c B (fun _ => True) count count') :
    Source.Alike c B (source.limited count) (source'.limited count') where
  start := by
    refine Eval.alike_bind hcount fun count _ => ?_
    refine Eval.alike_bind h.start fun inner hinner => ?_
    exact Eval.alike_pure hinner
  advance cursor hc := by
    rcases cursor with _ | _ | _ | _ | ⟨left, inner⟩ | _
    case atMost =>
      rcases left with _ | left
      · exact Action.alike_pure ⟨Comparison.admissible_none, hc⟩
      · have hinner : c.Admits inner := hc
        exact Action.alike_bind (h.advance inner hinner) fun _ hpulled => Action.alike_pure hpulled
    all_goals exact Action.alike_pure ⟨Comparison.admissible_none, hc⟩

end Source

/-! ## Lambdas -/

namespace Binder

/-- Tests by lambdas that are alike are alike. -/
theorem Alike.test {binder binder' : Binder} (h : Binder.Alike c B binder binder')
    (argument : Value) :
    Eval.Alike c B (fun _ => True) (binder.test argument) (binder'.test argument) :=
  Eval.alike_map _ (h argument) fun _ _ => trivial

/-- So are tests by several lambdas in a row. -/
theorem Alike.testAll {binders binders' : List Binder}
    (h : List.Forall₂ (Binder.Alike c B) binders binders') (argument : Value) :
    Eval.Alike c B (fun _ => True) (testAll binders argument) (testAll binders' argument) := by
  induction h with
  | nil => exact Eval.alike_pure trivial
  | cons hbinder _ ih =>
      refine Eval.alike_bind (hbinder.test argument) fun passes _ => ?_
      split
      · exact ih
      · exact Eval.alike_pure trivial

end Binder

namespace Source

variable {source source' : Source} (h : Source.Alike c B source source')

include h

/-- Selections and rejections by lambdas that are alike are alike. -/
theorem Alike.sifted (keep : Bool) {binder binder' : Binder}
    (hb : Binder.Alike c B binder binder') :
    Source.Alike c B (source.sifted keep binder) (source'.sifted keep binder') := by
  refine h.mapping fun item hitem => alike_onValues (fun value => ?_) hitem
  exact Eval.alike_bind (hb.test value) fun _ _ => Eval.alike_pure trivial

/-- So are the results of the lambdas. -/
theorem Alike.mapped {binder binder' : Binder} (hb : Binder.Alike c B binder binder') :
    Source.Alike c B (source.mapped binder) (source'.mapped binder') := by
  refine h.mapping fun item hitem => alike_onValues (fun value => ?_) hitem
  exact Eval.alike_map _ (hb value) fun _ _ => trivial

/-- The greatest versions are alike. -/
theorem Alike.grouped {binders binders' : List Binder}
    (hb : List.Forall₂ (Binder.Alike c B) binders binders') :
    Eval.Alike c B (fun _ => True) (source.grouped binders) (source'.grouped binders') := by
  refine h.read (fun winners value => ?_) []
  exact Eval.alike_bind (Binder.Alike.testAll hb value) fun _ _ => Eval.alike_pure trivial

/-- They are alike as a sequence, too. -/
theorem Alike.latest {binders binders' : List Binder}
    (hb : List.Forall₂ (Binder.Alike c B) binders binders') :
    Source.Alike c B (source.latest binders) (source'.latest binders') :=
  alike_ofValue (Eval.alike_map _ (h.grouped hb) fun _ _ => trivial)

end Source

end RecordQuery
