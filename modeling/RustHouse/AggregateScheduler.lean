import RustHouse.OrderedReduction

/-!
# Scheduling of aggregates

An aggregate over many rows is computed by lanes, each over one contiguous part
of the rows: helper threads, as far as they are admitted, and the calling
thread. If a helper does not start or panics, the calling thread does it all.
-/

namespace RustHouse.Batch

open Checked Exec OrderedReduction

variable {ε P : Type}

def parallelAggregatePartition (matchingRows : List Nat) (workerCount workerIndex : Nat) : Option (List Nat) :=
  let rowsPerWorker := matchingRows.length / workerCount
  let workersWithExtraRow := matchingRows.length % workerCount
  let start := workerIndex * rowsPerWorker + min workerIndex workersWithExtraRow
  let partitionLen := rowsPerWorker + if workerIndex < workersWithExtraRow then 1 else 0
  if start + partitionLen ≤ matchingRows.length then some ((matchingRows.drop start).take partitionLen) else none

/-- What one aggregate is granted: helper threads, if any are admitted, and of these some that start and some that
do not panic on their own account. -/
structure Lanes where
  admission : Option Nat
  starts : Nat → Bool
  survives : Nat → Bool

/-- `handle.join()`. -/
def Lanes.join (lanes : Lanes) (chunkIndex : Nat) (partialResult : Exec ε P) : Exec ε P :=
  if lanes.survives chunkIndex then partialResult else .panic

def isPanic : Exec ε P → Bool
  | .panic => true
  | _ => false

section
variable (lanes : Lanes) (matchingRows : List Nat) (chunk : List Nat → Exec ε P)

/-- The results of the helpers, and whether one did not start; none is started behind it. -/
def spawnHelpers (workerCount : Nat) : List Nat → Exec ε (List (Exec ε P) × Bool)
  | [] => .ok ([], false)
  | chunkIndex :: chunkIndexes => do
    let rows ← orPanic (parallelAggregatePartition matchingRows workerCount chunkIndex)
    if lanes.starts chunkIndex then
      let (partials, workerFailed) ← spawnHelpers workerCount chunkIndexes
      .ok (lanes.join chunkIndex (chunk rows) :: partials, workerFailed)
    else .ok ([], true)

/-- The result of all lanes together, unless a helper failed; a panic on the calling thread is one of the call. -/
def tryParallel (reduce : List P → Exec ε P) (helperThreads : Nat) : Exec ε (Option (Exec ε P)) := do
  let workerCount := saturatingAdd helperThreads 1
  let (partials, workerFailed) ← spawnHelpers lanes matchingRows chunk workerCount (List.range' 1 (workerCount - 1))
  let rows ← orPanic (parallelAggregatePartition matchingRows workerCount 0)
  let first := chunk rows
  if isPanic first then .panic
  else if workerFailed ∨ partials.any isPanic then .ok none
  else .ok (some (collect (first :: partials) >>= reduce))

def runGroupedAggregate (reduce : List P → Exec ε P) : Exec ε P :=
  match lanes.admission with
  | none => chunk matchingRows
  | some helperThreads => do
    let parallelResult ← tryParallel lanes matchingRows chunk reduce helperThreads
    parallelResult.getD (chunk matchingRows)

end

/-! ## The parts make up the rows -/

/-- Where the part of a lane begins. -/
def partitionStart (length workerCount workerIndex : Nat) : Nat :=
  workerIndex * (length / workerCount) + min workerIndex (length % workerCount)

/-- How long it is. -/
def partitionSize (length workerCount workerIndex : Nat) : Nat :=
  length / workerCount + if workerIndex < length % workerCount then 1 else 0

theorem partitionStart_succ (length workerCount workerIndex : Nat) :
    partitionStart length workerCount (workerIndex + 1) =
      partitionStart length workerCount workerIndex + partitionSize length workerCount workerIndex := by
  unfold partitionStart partitionSize
  rw [Nat.succ_mul]
  split <;> omega

theorem partitionStart_last {length workerCount : Nat} (h : 0 < workerCount) :
    partitionStart length workerCount workerCount = length := by
  have hrest := Nat.mod_lt length h
  rw [partitionStart, Nat.min_eq_right (Nat.le_of_lt hrest), Nat.div_add_mod]

theorem partitionStart_mono {length workerCount : Nat} {i j : Nat} (h : i ≤ j) :
    partitionStart length workerCount i ≤ partitionStart length workerCount j := by
  induction h with
  | refl => exact Nat.le_refl _
  | step _ ih => exact Nat.le_trans ih (partitionStart_succ .. ▸ Nat.le_add_right _ _)

def part (matchingRows : List Nat) (workerCount workerIndex : Nat) : List Nat :=
  (matchingRows.drop (partitionStart matchingRows.length workerCount workerIndex)).take
    (partitionSize matchingRows.length workerCount workerIndex)

theorem parallelAggregatePartition_eq {matchingRows : List Nat} {workerCount workerIndex : Nat}
    (h : workerIndex < workerCount) :
    parallelAggregatePartition matchingRows workerCount workerIndex = some (part matchingRows workerCount workerIndex) := by
  have hmono := @partitionStart_mono matchingRows.length workerCount _ _ (Nat.succ_le_of_lt h)
  rw [partitionStart_last (Nat.zero_lt_of_lt h), partitionStart_succ] at hmono
  exact if_pos hmono

/-- **The parts** of the lanes, one behind the other, are the rows. -/
theorem flatten_parts (matchingRows : List Nat) {workerCount : Nat} (h : 0 < workerCount) :
    ((List.range workerCount).map (part matchingRows workerCount)).flatten = matchingRows := by
  rw [← List.flatMap_def]
  refine (flatMap_pieces matchingRows (by simp [partitionStart]) (partitionStart_succ _ _) workerCount).trans ?_
  rw [partitionStart_last h, List.take_length]

/-! ## The lanes agree with one -/

section
variable {lanes : Lanes} {matchingRows : List Nat}

theorem spawnHelpers_spec {chunk : List Nat → Exec ε P} {workerCount : Nat} {chunkIndexes : List Nat}
    (h : ∀ i ∈ chunkIndexes, i < workerCount) :
    ∃ partials workerFailed, spawnHelpers lanes matchingRows chunk workerCount chunkIndexes = .ok (partials, workerFailed) ∧
      (workerFailed = false →
        partials = chunkIndexes.map fun i => lanes.join i (chunk (part matchingRows workerCount i))) := by
  induction chunkIndexes with
  | nil => exact ⟨[], false, rfl, fun _ => rfl⟩
  | cons i chunkIndexes ih =>
    obtain ⟨hi, hrest⟩ := List.forall_mem_cons.1 h
    rw [spawnHelpers, parallelAggregatePartition_eq hi, orPanic_some, Exec.ok_bind]
    by_cases hstarts : lanes.starts i
    · obtain ⟨partials, workerFailed, hspawn, hpartials⟩ := ih hrest
      refine ⟨_ :: partials, workerFailed, by rw [if_pos hstarts, hspawn]; rfl, fun hfailed => ?_⟩
      rw [hpartials hfailed, List.map_cons]
    · exact ⟨[], true, if_neg hstarts, nofun⟩

theorem join_of_not_panic {i : Nat} {result : Exec ε P} (h : isPanic (lanes.join i result) = false) :
    lanes.join i result = result := by
  unfold Lanes.join at h ⊢
  split
  · rfl
  · rename_i hdead
    rw [if_neg hdead] at h
    cases h

theorem map_join {results : Nat → Exec ε P} {chunkIndexes : List Nat}
    (h : ¬ (chunkIndexes.map fun i => lanes.join i (results i)).any isPanic) :
    (chunkIndexes.map fun i => lanes.join i (results i)) = chunkIndexes.map results := by
  refine List.map_congr_left fun i hi => join_of_not_panic (Bool.eq_false_iff.2 fun hpanic => h ?_)
  exact List.any_eq_true.2 ⟨_, List.mem_map.2 ⟨i, hi, rfl⟩, hpanic⟩

theorem tryParallel_spec {tally : Tally Nat P ε} {fits : List Nat → Prop} (h : tally.Lawful fits)
    (hfits : fits matchingRows) (helperThreads : Nat) :
    tryParallel lanes matchingRows tally.scan tally.reduce helperThreads = .ok none ∨
      tryParallel lanes matchingRows tally.scan tally.reduce helperThreads = .ok (some (tally.scan matchingRows)) := by
  obtain ⟨helpers, hworkers⟩ : ∃ helpers, saturatingAdd helperThreads 1 = helpers + 1 :=
    Nat.exists_eq_succ_of_ne_zero (Nat.pos_iff_ne_zero.1 (Nat.lt_min.2 ⟨Nat.succ_pos _, by decide⟩))
  have hparts := flatten_parts matchingRows (Nat.succ_pos helpers)
  rw [List.range_eq_range', List.range'_succ, Nat.zero_add] at hparts
  have hfirst : isPanic (tally.scan (part matchingRows (helpers + 1) 0)) = false := by
    rw [List.map_cons, List.flatten_cons] at hparts
    rw [Tally.scan_eq h (h.left _ _ (hparts.symm ▸ hfits)), Tally.checked]
    split <;> rfl
  obtain ⟨partials, workerFailed, hspawn, hpartials⟩ :=
    @spawnHelpers_spec ε P lanes matchingRows tally.scan (helpers + 1) (List.range' 1 helpers) fun i hi => by
      have := List.mem_range'_1.1 hi
      omega
  rw [tryParallel]
  dsimp only
  rw [hworkers, Nat.add_sub_cancel, hspawn, Exec.ok_bind]
  dsimp only
  rw [parallelAggregatePartition_eq (Nat.succ_pos helpers), orPanic_some, Exec.ok_bind, hfirst, if_neg Bool.false_ne_true]
  by_cases hfailed : workerFailed = true ∨ partials.any isPanic = true
  · exact .inl (if_pos hfailed)
  · obtain ⟨hstarted, hsurvived⟩ := not_or.1 hfailed
    have hjoined := hpartials (Bool.eq_false_iff.2 hstarted)
    rw [hjoined] at hsurvived
    have hreduce := Tally.reduce_pieces h (hparts.symm ▸ hfits)
    rw [hparts, List.map_cons, List.map_cons, List.map_map] at hreduce
    right
    rw [if_neg hfailed, hjoined, map_join hsurvived, ← hreduce]
    rfl

/-- **The lanes agree** with one pass over all rows, however many helpers are admitted and whichever of them fail. -/
theorem runGroupedAggregate_eq {tally : Tally Nat P ε} {fits : List Nat → Prop} (h : tally.Lawful fits)
    (hfits : fits matchingRows) :
    runGroupedAggregate lanes matchingRows tally.scan tally.reduce = tally.scan matchingRows := by
  unfold runGroupedAggregate
  split
  · rfl
  · rename_i helperThreads _
    obtain hnone | hsome := @tryParallel_spec _ _ lanes _ _ _ h hfits helperThreads
    · rw [hnone, Exec.ok_bind, Option.getD_none]
    · rw [hsome, Exec.ok_bind, Option.getD_some]

end

end RustHouse.Batch
