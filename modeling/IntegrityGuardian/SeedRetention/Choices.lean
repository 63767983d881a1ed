import IntegrityGuardian.Library.TopRanked
import IntegrityGuardian.Python.JsonFields
import Mathlib.Data.Finset.Card
import Mathlib.Data.Finset.Dedup

/-!
# Which runs stay

`choose_runs` and `choose_delta_runs` of `seed_run_retention.py`.  Both keep the
latest runs, the runs of certain profiles and the two ends of every bucket; the
bucket and the anchors beside it are what they differ in.
-/

namespace IntegrityGuardian.SeedRetention

open Python Library

/-- `str.upper` and `str.lower`.  Outside ASCII their data differ between interpreters. -/
class CaseData where
  upper : Str → Str
  lower : Str → Str
  upper_ascii : ∀ s : Str, (∀ c ∈ s, c.val < 128) →
    upper s = s.map fun c => if 97 ≤ c.val ∧ c.val ≤ 122 then c - 32 else c
  lower_ascii : ∀ s : Str, (∀ c ∈ s, c.val < 128) →
    lower s = s.map fun c => if 65 ≤ c.val ∧ c.val ≤ 90 then c + 32 else c

/-- The data restricted to ASCII. -/
@[reducible] def asciiCaseData : CaseData where
  upper s := s.map fun c => if 97 ≤ c.val ∧ c.val ≤ 122 then c - 32 else c
  lower s := s.map fun c => if 65 ≤ c.val ∧ c.val ≤ 90 then c + 32 else c
  upper_ascii _ _ := rfl
  lower_ascii _ _ := rfl

/-- A text that SQLite returns, which is valid UTF-8. -/
abbrev Text := {s : Str // s.any CodePoint.isSurrogate = false}

/-- A row of `seed_catalog_runs`. -/
structure CatalogRun where
  runId : Text
  profile : Text
  sourceNamespace : Text
  sourceDigest : Text
  catalogDigest : Text
  eventCount : Int
  insertedEventCount : Int
  existingEventCount : Int
  entityCount : Int
  relationCount : Int
  taskCount : Int
  activeTaskCount : Int
  lockCount : Int
  activeLockCount : Int
  topicCount : Int
  homeRecordCount : Int
  result : Text
  startedAt : Text
  finishedAt : Text
  deriving DecidableEq

/-- A row of `seed_delta_runs`. -/
structure DeltaRun where
  checkpointDigest : Text
  previousCheckpointDigest : Text
  profile : Text
  eventCount : Int
  eventCursor : Int
  insertedEventCount : Int
  deltaDigest : Text
  mmrRoot : Text
  verificationMode : Text
  startedAt : Text
  finishedAt : Text
  deriving DecidableEq

/-- What the two functions read of a row. -/
structure Policy (Row : Type) where
  id : Row → Str
  finishedAt : Row → Str
  profile : Row → Str
  /-- The last part of the bucket's key. -/
  outcome : Row → Str
  /-- The last row with each of these properties stays. -/
  anchors : List (Row → Bool)

/-- `PERMANENT_PROFILE_MARKERS`. -/
def permanentProfileMarkers : List Str :=
  ["release", "acceptance", "checkpoint", "cutover", "freeze", "seal"].map str

/-- `_day`. -/
def day (value : Str) : Str := if 10 ≤ value.length then value.take 10 else str "unknown"

/-- `bucket[0]` and `bucket[-1]`. -/
def ends {Row : Type} (bucket : List Row) : List Row :=
  bucket.head?.toList ++ bucket.getLast?.toList

/-- `ordered[-max(1, keep_recent):]`. -/
def recents {Row : Type} (ordered : List Row) (keepRecent : Int) : List Row :=
  ordered.drop (ordered.length - (max 1 keepRecent).toNat)

section
variable [CaseData] {Row : Type} (policy : Policy Row)

/-- `any(marker in profile.lower() for marker in PERMANENT_PROFILE_MARKERS)`. -/
def Policy.isPermanent (row : Row) : Bool :=
  permanentProfileMarkers.any fun marker => marker <:+: CaseData.lower (policy.profile row)

/-- The key of a row's bucket. -/
def Policy.key (row : Row) : Str × Str × Str :=
  (day (policy.finishedAt row), policy.profile row, policy.outcome row)

/-- `sorted(rows, key=…)`. -/
def Policy.ordered (rows : List Row) : List Row :=
  ranked (fun row => toLex (policy.finishedAt row, policy.id row)) rows

/-- The rows in one bucket. -/
def Policy.bucket (ordered : List Row) (key : Str × Str × Str) : List Row :=
  ordered.filter fun row => !policy.isPermanent row && policy.key row == key

/-- `buckets.values()`; nothing depends on their order. -/
def Policy.buckets (ordered : List Row) : List (List Row) :=
  ((ordered.filter (!policy.isPermanent ·)).map policy.key).dedup.map (policy.bucket ordered)

/-- The rows whose identifiers are put into `keep`. -/
def Policy.sources (ordered : List Row) (keepRecent : Int) : List Row :=
  recents ordered keepRecent
    ++ policy.anchors.flatMap (fun test => (ordered.filter test).getLast?.toList)
    ++ ordered.filter policy.isPermanent
    ++ (policy.buckets ordered).flatMap ends

/-- The identifiers that stay, and the rows to archive. -/
def Policy.choose (rows : List Row) (keepRecent : Int) : Finset Str × List Row :=
  let ordered := policy.ordered rows
  let keep := ((policy.sources ordered keepRecent).map policy.id).toFinset
  (keep, ordered.filter fun row => policy.id row ∉ keep)

end

section
variable [CaseData]

def catalogPolicy : Policy CatalogRun where
  id row := row.runId
  finishedAt row := row.finishedAt
  profile row := row.profile
  outcome row := CaseData.upper row.result
  anchors := [fun row => CaseData.upper row.result == str "PASS",
    fun row => CaseData.upper row.result != str "PASS"]

def deltaPolicy : Policy DeltaRun where
  id row := row.checkpointDigest
  finishedAt row := row.finishedAt
  profile row := row.profile
  outcome row := row.verificationMode
  anchors := []

/-- `choose_runs`. -/
def chooseRuns (rows : List CatalogRun) (keepRecent : Int) : Finset Str × List CatalogRun :=
  catalogPolicy.choose rows keepRecent

/-- `choose_delta_runs`. -/
def chooseDeltaRuns (rows : List DeltaRun) (keepRecent : Int) : Finset Str × List DeltaRun :=
  deltaPolicy.choose rows keepRecent

end

/-! ## Ends of lists that lose other entries -/

section
variable {Row : Type} {p : Row → Bool}

variable {l : List Row} {row : Row}

theorem mem_of_mem_ends (h : row ∈ ends l) : row ∈ l := by
  simp only [ends, List.mem_append, Option.mem_toList] at h
  cases h with
  | inl hhead => exact List.mem_of_mem_head? hhead
  | inr hlast => exact List.mem_of_mem_getLast? hlast

end

/-! ## A second choice -/

section
variable [CaseData] {Row : Type} {policy : Policy Row} {ordered : List Row} {keepRecent : Int}

variable {row : Row}

theorem mem_of_mem_sources (h : row ∈ policy.sources ordered keepRecent) : row ∈ ordered := by
  simp only [Policy.sources, List.mem_append, List.mem_flatMap, Option.mem_toList] at h
  rcases h with ((hrecent | ⟨test, -, hlast⟩) | hpermanent) | ⟨bucket, hbucket, hend⟩
  · exact List.mem_of_mem_drop hrecent
  · exact (List.mem_filter.1 (List.mem_of_mem_getLast? hlast)).1
  · exact (List.mem_filter.1 hpermanent).1
  · obtain ⟨key, -, rfl⟩ := List.mem_map.1 hbucket
    exact (List.mem_filter.1 (mem_of_mem_ends hend)).1

variable (policy)

/-- The rows of a table whose identifiers stay. -/
def Policy.kept (rows : List Row) (keepRecent : Int) : List Row :=
  rows.filter fun row => policy.id row ∈ (policy.choose rows keepRecent).1

variable {policy} {rows : List Row}

variable {row : Row}

omit [CaseData] in
theorem mem_ordered : row ∈ policy.ordered rows ↔ row ∈ rows := mem_ranked

theorem mem_archived : row ∈ (policy.choose rows keepRecent).2
      ↔ row ∈ rows ∧ policy.id row ∉ (policy.choose rows keepRecent).1 := by
  simp only [Policy.choose, List.mem_filter, mem_ordered, decide_eq_true_eq]

omit [CaseData] in
theorem ordered_ordered (rows : List Row) :
    policy.ordered (policy.ordered rows) = policy.ordered rows :=
  (ranked_pairwise _ rows).insertionSort_eq

theorem choose_ordered (rows : List Row) (keepRecent : Int) :
    policy.choose (policy.ordered rows) keepRecent = policy.choose rows keepRecent := by
  simp only [Policy.choose, ordered_ordered]

theorem filter_archived :
    (rows.filter fun row =>
        policy.id row ∉ ((policy.choose rows keepRecent).2.map policy.id))
      = policy.kept rows keepRecent := by
  apply List.filter_congr
  intro row hrow
  rw [decide_eq_decide, List.mem_map]
  constructor
  · intro h
    by_contra hkeep
    exact h ⟨row, mem_archived.2 ⟨hrow, hkeep⟩, rfl⟩
  · rintro hkeep ⟨other, hother, hid⟩
    exact (mem_archived.1 hother).2 (hid ▸ hkeep)

theorem perm_kept_append_archived (rows : List Row) (keepRecent : Int) :
    rows.Perm (policy.kept rows keepRecent ++ (policy.choose rows keepRecent).2) := by
  have harchived : (policy.choose rows keepRecent).2.Perm
      (rows.filter fun row => !decide (policy.id row ∈ (policy.choose rows keepRecent).1)) := by
    simp only [← decide_not]
    exact (ranked_perm _ rows).filter _
  exact (List.filter_append_perm _ rows).symm.trans (harchived.symm.append_left _)

theorem card_keep (h : (rows.map policy.id).Nodup) :
    (policy.choose rows keepRecent).1.card = (policy.kept rows keepRecent).length := by
  have hnodup : ((policy.kept rows keepRecent).map policy.id).Nodup :=
    h.sublist (List.filter_sublist.map policy.id)
  have hkeep : (policy.choose rows keepRecent).1
      = ((policy.kept rows keepRecent).map policy.id).toFinset := by
    ext id
    rw [List.mem_toFinset, List.mem_map]
    constructor
    · intro hid
      obtain ⟨row, hrow, rfl⟩ := List.mem_map.1 (List.mem_toFinset.1 hid)
      exact ⟨row, List.mem_filter.2 ⟨mem_ordered.1 (mem_of_mem_sources hrow), decide_eq_true hid⟩,
        rfl⟩
    · rintro ⟨row, hrow, rfl⟩
      exact of_decide_eq_true (List.mem_filter.1 hrow).2
  rw [hkeep, List.toFinset_card_of_nodup hnodup, List.length_map]

end

end IntegrityGuardian.SeedRetention
