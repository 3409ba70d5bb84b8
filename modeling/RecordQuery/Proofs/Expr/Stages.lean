import RecordQuery.Expr.Basic
import RecordQuery.Query.Tape
import RecordQuery.Value.Fingerprint

/-!
# Chains of streaming filters

A chain is a number of stages over the working set, each of which selects, rejects, replaces, keeps
first occurrences or limits. `Stage.outputs` is what a stage makes of a list of items, failures
included, and `Chain.outputs` what a chain makes of one.

A stage gives at most one output for each item that it reads, in the same order, so that it can be
told of every output how much of the source was read when it came about: `Chain.timed` are the
outputs with these positions, and a last position, up to which the source is read by whoever pulls
beyond the outputs.

* `Chain.map_fst_timed`: without the positions, these are the outputs.
* `Chain.le_length_outputs_iff`: the position of an output is the length of the shortest prefix of
  the source that gives so many outputs.
* `Chain.timed_le_of_limit`: behind a limit no position lies beyond that of its last output.
-/

namespace RecordQuery

/-! ## Stages -/

/-- A streaming filter, without its source. -/
inductive Stage where
  /-- The items for which the lambda is true. -/
  | select (condition : Lambda)
  /-- The items for which the lambda is not true. -/
  | reject (condition : Lambda)
  /-- What the lambda makes of the items. -/
  | collect (result : Lambda)
  /-- The items that did not occur before. A lambda has no part in it. -/
  | unique (lambda : Option Lambda)
  /-- The first items, of a number that is not negative. -/
  | limit (count : Int64) (h : 0 ≤ count.toInt)

/-- What lambdas answer to values. -/
abbrev Answers := Lambda → Value → Except QueryError Value

namespace Item

/-- An item that passes if the answer is true, or if it is not. Failures pass, and a failing answer
takes the place of the item. -/
def sift (keep : Bool) (answer : Value → Except QueryError Value) : Item → Option Item
  | .error e => some (.error e)
  | .ok value =>
    match answer value with
    | .ok result => if result.isTrue == keep then some (.ok value) else none
    | .error e => some (.error e)

/-- The answer to an item. A failure stays what it is. -/
def replace (answer : Value → Except QueryError Value) : Item → Option Item
  | .error e => some (.error e)
  | .ok value => some (answer value)

/-- All failures, and of the values those that are not among the ones seen or met before. -/
def firsts (seen : List Value) : List Item → List Item
  | [] => []
  | .error e :: rest => .error e :: firsts seen rest
  | .ok value :: rest =>
    if seen.any (· == value) then firsts seen rest else .ok value :: firsts (value :: seen) rest

end Item

namespace Stage

/-- The filter on a source. -/
def expr (source : Expr) : Stage → Expr
  | .select condition => source.filtered .select (some condition)
  | .reject condition => source.filtered .reject (some condition)
  | .collect result => source.filtered .collect (some result)
  | .unique lambda => source.filtered .unique lambda
  | .limit count _ => .call .limit [source, .literal (.integer count)]

/-- What a stage makes of items. -/
def outputs (answer : Answers) : Stage → List Item → List Item
  | .select condition, items => items.filterMap (Item.sift true (answer condition))
  | .reject condition, items => items.filterMap (Item.sift false (answer condition))
  | .collect result, items => items.filterMap (Item.replace (answer result))
  | .unique _, items => Item.firsts [] items
  | .limit count _, items => items.take count.toInt.toNat

end Stage

namespace Chain

/-- The expression that stages make over the working set, the outermost first. -/
def expr : List Stage → Expr
  | [] => .everything
  | stage :: inner => stage.expr (expr inner)

/-- What stages make of the items of the working set, the outermost first. -/
def outputs (answer : Answers) : List Stage → List Item → List Item
  | [], items => items
  | stage :: inner, items => stage.outputs answer (outputs answer inner items)

end Chain

/-! ## Positions -/

/-- An item and how many items of the source are read when it comes about. -/
abbrev Timed := Item × Nat

/-- Where a reader stands after so many pulls on outputs, who starts at a position and, beyond the
outputs, reads on to the last one. -/
def Timed.positionAfter : Nat → Nat → List Timed → Nat → Nat
  | start, 0, _, _ => start
  | _, _ + 1, [], last => last
  | _, pulls + 1, (_, position) :: rest, last => positionAfter position pulls rest last

/-- Applies to items, and leaves their positions. -/
def Timed.filterMap (f : Item → Option Item) (items : List Timed) : List Timed :=
  items.filterMap fun (item, position) => (f item).map (·, position)

/-- First occurrences, with their positions. -/
def Timed.firsts (seen : List Value) : List Timed → List Timed
  | [] => []
  | (.error e, position) :: rest => (.error e, position) :: firsts seen rest
  | (.ok value, position) :: rest =>
    if seen.any (· == value) then firsts seen rest
    else (.ok value, position) :: firsts (value :: seen) rest

namespace Stage

/-- What a stage makes of items with positions. -/
def timed (answer : Answers) : Stage → List Timed → List Timed
  | .select condition, items => Timed.filterMap (Item.sift true (answer condition)) items
  | .reject condition, items => Timed.filterMap (Item.sift false (answer condition)) items
  | .collect result, items => Timed.filterMap (Item.replace (answer result)) items
  | .unique _, items => Timed.firsts [] items
  | .limit count _, items => items.take count.toInt.toNat

/-- The last position of a stage. A limit stops where it has all its outputs. -/
def last : Stage → List Timed → Nat → Nat
  | .limit count _, items, last => Timed.positionAfter 0 count.toInt.toNat items last
  | _, _, last => last

end Stage

namespace Chain

/-- The outputs of a chain with their positions. -/
def timed (answer : Answers) : List Stage → List Item → List Timed
  | [], items => items.zipIdx 1
  | stage :: inner, items => stage.timed answer (timed answer inner items)

/-- The last position of a chain. -/
def last (answer : Answers) : List Stage → List Item → Nat
  | [], items => items.length
  | stage :: inner, items => stage.last (timed answer inner items) (last answer inner items)

end Chain

/-! ## Outputs without positions -/

/-- Without positions, the items that a rule passes on are those it passes on of the items alone. -/
theorem Timed.map_fst_filterMap (f : Item → Option Item) (items : List Timed) :
    (filterMap f items).map Prod.fst = (items.map Prod.fst).filterMap f := by
  unfold filterMap
  rw [List.map_filterMap, List.filterMap_map]
  congr
  funext ⟨item, position⟩
  show Option.map Prod.fst ((f item).map (·, position)) = f item
  cases f item <;> rfl

/-- Without positions, first occurrences are the first occurrences among the items alone. -/
theorem Timed.map_fst_firsts (seen : List Value) (items : List Timed) :
    (firsts seen items).map Prod.fst = Item.firsts seen (items.map Prod.fst) := by
  induction items generalizing seen with
  | nil => rfl
  | cons timed rest ih =>
      obtain ⟨e | value, position⟩ := timed
      · rw [firsts, List.map_cons, List.map_cons, Item.firsts, ih]
      · rw [firsts, List.map_cons, Item.firsts]
        split
        · exact ih seen
        · rw [List.map_cons, ih]

/-- Without positions, what a stage gives is what it gives of the items alone. -/
theorem Stage.map_fst_timed (answer : Answers) (stage : Stage) (items : List Timed) :
    (stage.timed answer items).map Prod.fst = stage.outputs answer (items.map Prod.fst) := by
  cases stage with
  | select | reject | collect => exact Timed.map_fst_filterMap _ items
  | unique => exact Timed.map_fst_firsts [] items
  | limit => exact List.map_take

/-- Without positions, what a chain gives is what it gives of the items alone. -/
theorem Chain.map_fst_timed (answer : Answers) (stages : List Stage) (items : List Item) :
    (timed answer stages items).map Prod.fst = outputs answer stages items := by
  induction stages with
  | nil => exact List.zipIdx_map_fst 1 items
  | cons stage inner ih => rw [timed, Stage.map_fst_timed, ih, outputs]

/-- Positions do not change how many items a chain gives. -/
theorem Chain.length_timed (answer : Answers) (stages : List Stage) (items : List Item) :
    (timed answer stages items).length = (outputs answer stages items).length := by
  rw [← map_fst_timed, List.length_map]

/-! ## Outputs of a prefix -/

namespace Timed

/-- The positions of what a rule passes on stay in order. -/
theorem map_snd_filterMap_sublist (f : Item → Option Item) (items : List Timed) :
    ((filterMap f items).map Prod.snd).Sublist (items.map Prod.snd) := by
  induction items with
  | nil => exact .slnil
  | cons timed rest ih =>
      obtain ⟨item, position⟩ := timed
      rcases hf : f item with _ | output
      · have hrest : filterMap f ((item, position) :: rest) = filterMap f rest := by
          simp [filterMap, hf]
        rw [hrest]
        exact ih.cons position
      · have hrest : filterMap f ((item, position) :: rest) =
            (output, position) :: filterMap f rest := by
          simp [filterMap, hf]
        rw [hrest]
        exact ih.cons_cons position

/-- First occurrences are some of the items, in order. -/
theorem firsts_sublist (seen : List Value) (items : List Timed) :
    (firsts seen items).Sublist items := by
  induction items generalizing seen with
  | nil => exact .slnil
  | cons timed rest ih =>
      obtain ⟨e | value, position⟩ := timed
      · exact (ih seen).cons_cons _
      · rw [firsts]
        split
        · exact (ih seen).cons _
        · exact (ih (value :: seen)).cons_cons _

/-- What comes later does not change the first occurrences before. -/
theorem exists_firsts_append (seen : List Value) (items later : List Timed) :
    ∃ rest, firsts seen (items ++ later) = firsts seen items ++ rest ∧ rest.Sublist later := by
  induction items generalizing seen with
  | nil => exact ⟨firsts seen later, rfl, firsts_sublist seen later⟩
  | cons timed items ih =>
      obtain ⟨e | value, position⟩ := timed
      · obtain ⟨rest, hrest, hsublist⟩ := ih seen
        exact ⟨rest, congrArg (_ :: ·) hrest, hsublist⟩
      · rw [List.cons_append, firsts, firsts]
        split
        · exact ih seen
        · obtain ⟨rest, hrest, hsublist⟩ := ih (value :: seen)
          exact ⟨rest, congrArg (_ :: ·) hrest, hsublist⟩

end Timed

namespace Stage

variable (answer : Answers) (stage : Stage)

/-- A stage gives no output at a position where it reads nothing. -/
theorem map_snd_timed_sublist (items : List Timed) :
    ((stage.timed answer items).map Prod.snd).Sublist (items.map Prod.snd) := by
  cases stage with
  | select | reject | collect => exact Timed.map_snd_filterMap_sublist _ items
  | unique => exact (Timed.firsts_sublist [] items).map Prod.snd
  | limit count => exact (List.take_sublist _ items).map Prod.snd

/-- What a stage reads later has no part in the outputs that it gave before. -/
theorem exists_timed_append (items later : List Timed) :
    ∃ rest, stage.timed answer (items ++ later) = stage.timed answer items ++ rest ∧
      (rest.map Prod.snd).Sublist (later.map Prod.snd) := by
  cases stage with
  | select | reject | collect =>
      exact ⟨_, List.filterMap_append, Timed.map_snd_filterMap_sublist _ later⟩
  | unique =>
      obtain ⟨rest, hrest, hsublist⟩ := Timed.exists_firsts_append [] items later
      exact ⟨rest, hrest, hsublist.map Prod.snd⟩
  | limit count =>
      exact ⟨_, List.take_append, (List.take_sublist _ later).map Prod.snd⟩

end Stage

namespace Chain

variable (answer : Answers)

/-- **A chain looks no further than it has to**: reading the source further adds outputs behind those
of a prefix, and these come about behind the prefix. -/
theorem exists_timed_eq_append (stages : List Stage) (items : List Item) (j : Nat) :
    ∃ rest, timed answer stages items = timed answer stages (items.take j) ++ rest ∧
      (∀ output ∈ timed answer stages (items.take j), output.2 ≤ j) ∧
      ∀ output ∈ rest, j < output.2 := by
  induction stages with
  | nil =>
      refine ⟨(items.drop j).zipIdx (1 + (items.take j).length), ?_, ?_, ?_⟩
      · rw [timed, timed, ← List.zipIdx_append, List.take_append_drop]
      · rintro ⟨item, position⟩ houtput
        have hlt := List.snd_lt_add_of_mem_zipIdx houtput
        rw [List.length_take] at hlt
        dsimp only at hlt ⊢
        omega
      · rintro ⟨item, position⟩ houtput
        have hle := List.le_snd_of_mem_zipIdx houtput
        have hlt := List.snd_lt_add_of_mem_zipIdx houtput
        rw [List.length_take] at hle hlt
        rw [List.length_drop] at hlt
        dsimp only at hle hlt ⊢
        omega
  | cons stage inner ih =>
      obtain ⟨later, hlater, hbefore, hbehind⟩ := ih
      obtain ⟨rest, hrest, hsublist⟩ :=
        stage.exists_timed_append answer (timed answer inner (items.take j)) later
      refine ⟨rest, ?_, fun output houtput => ?_, fun output houtput => ?_⟩
      · rw [timed, hlater, hrest, timed]
      · have hposition := (stage.map_snd_timed_sublist answer _).subset
          (List.mem_map_of_mem houtput)
        obtain ⟨read, hread, heq⟩ := List.mem_map.mp hposition
        exact heq ▸ hbefore read hread
      · have hposition := hsublist.subset (List.mem_map_of_mem houtput)
        obtain ⟨read, hread, heq⟩ := List.mem_map.mp hposition
        exact heq ▸ hbehind read hread

end Chain

/-! ## Where a reader stands -/

namespace Timed

/-- A reader who pulled some outputs stands where the last of them came about. -/
theorem positionAfter_succ {pulls : Nat} {outputs : List Timed} (h : pulls < outputs.length)
    (start last : Nat) : positionAfter start (pulls + 1) outputs last = outputs[pulls].2 := by
  induction pulls generalizing start outputs with
  | zero =>
      rcases outputs with _ | ⟨⟨item, position⟩, rest⟩
      · cases h
      · rfl
  | succ pulls ih =>
      rcases outputs with _ | ⟨⟨item, position⟩, rest⟩
      · cases h
      · exact ih (Nat.lt_of_succ_lt_succ h) position

/-- Wherever the outputs and the last position are bounded, the reader is. -/
theorem positionAfter_le {outputs : List Timed} {bound : Nat}
    (houtputs : ∀ output ∈ outputs, output.2 ≤ bound) {start last : Nat} (hstart : start ≤ bound)
    (hlast : last ≤ bound) (pulls : Nat) : positionAfter start pulls outputs last ≤ bound := by
  induction pulls generalizing start outputs with
  | zero => exact hstart
  | succ pulls ih =>
      rcases outputs with _ | ⟨⟨item, position⟩, rest⟩
      · exact hlast
      · rw [List.forall_mem_cons] at houtputs
        exact ih houtputs.2 houtputs.1

end Timed

namespace Chain

variable (answer : Answers)

/-- **The position of an output is the shortest prefix that gives it.** -/
theorem le_length_outputs_iff {stages : List Stage} {items : List Item} {pulls : Nat}
    (h : pulls ≤ (outputs answer stages items).length) (last j : Nat) :
    pulls ≤ (outputs answer stages (items.take j)).length ↔
      Timed.positionAfter 0 pulls (timed answer stages items) last ≤ j := by
  rcases pulls with _ | pulls
  · simp [Timed.positionAfter]
  · rw [← length_timed] at h ⊢
    rw [Timed.positionAfter_succ h]
    obtain ⟨rest, hsplit, hbefore, hbehind⟩ := exists_timed_eq_append answer stages items j
    by_cases hlt : pulls < (timed answer stages (items.take j)).length
    · refine iff_of_true hlt ?_
      have hget : (timed answer stages items)[pulls] =
          (timed answer stages (items.take j))[pulls] := by
        simp only [hsplit, List.getElem_append_left hlt]
      rw [hget]
      exact hbefore _ (List.getElem_mem hlt)
    · refine iff_of_false hlt (Nat.not_le.mpr ?_)
      have hmem : (timed answer stages items)[pulls] ∈ rest := by
        simp only [hsplit, List.getElem_append_right (Nat.not_lt.mp hlt)]
        exact List.getElem_mem _
      exact hbehind _ hmem

/-- **Behind a limit nothing is read that comes after its last output**: neither for any output of
the chain, nor beyond the outputs. -/
theorem timed_le_of_limit {inner : List Stage} {items : List Item} {count : Int64}
    (hcount : 0 ≤ count.toInt) {j : Nat}
    (h : count.toInt.toNat ≤ (outputs answer inner (items.take j)).length) (outer : List Stage) :
    (∀ output ∈ timed answer (outer ++ .limit count hcount :: inner) items, output.2 ≤ j) ∧
      last answer (outer ++ .limit count hcount :: inner) items ≤ j := by
  induction outer with
  | nil =>
      obtain ⟨rest, hsplit, hbefore, -⟩ := exists_timed_eq_append answer inner items j
      rw [← length_timed] at h
      refine ⟨fun output houtput => ?_, ?_⟩
      · rw [List.nil_append, timed, Stage.timed, hsplit, List.take_append_of_le_length h] at houtput
        exact hbefore output (List.mem_of_mem_take houtput)
      · have hlength : count.toInt.toNat ≤ (outputs answer inner items).length := by
          rw [← length_timed, hsplit, List.length_append]
          omega
        rw [length_timed] at h
        exact (le_length_outputs_iff answer hlength _ j).mp h
  | cons stage outer ih =>
      obtain ⟨houtputs, hlast⟩ := ih
      refine ⟨fun output houtput => ?_, ?_⟩
      · have hposition := (stage.map_snd_timed_sublist answer _).subset
          (List.mem_map_of_mem houtput)
        obtain ⟨read, hread, heq⟩ := List.mem_map.mp hposition
        exact heq ▸ houtputs read hread
      · rw [List.cons_append, Chain.last]
        cases stage with
        | limit count => exact Timed.positionAfter_le houtputs (Nat.zero_le j) hlast _
        | select | reject | collect | unique => exact hlast

end Chain

end RecordQuery
