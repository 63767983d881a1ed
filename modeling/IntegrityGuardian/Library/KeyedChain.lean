import Mathlib.Data.List.Induction

/-!
# Interleaved hash chains

A log holds the entries of many chains, one for each key, in the order they were
written.  Inside its chain an entry has the next sequence number and a link to
the digest of the entry before it.  A writer looks up the entry with the highest
number of its key; a verifier replays the log from the start and remembers one
tip for each key.  On a chained log both see the same tip.
-/

namespace IntegrityGuardian.Library.KeyedChain

variable {α κ δ : Type} [DecidableEq κ]

/-- How an entry is placed: its key, number, link and digest. -/
structure Placement (α κ δ : Type) where
  key : α → κ
  number : α → Int
  link : α → Option δ
  digest : α → δ

variable (p : Placement α κ δ)

/-- The entries of one chain. -/
def chain (k : κ) (log : List α) : List α := log.filter fun x => p.key x = k

/-- The last entry of one chain. -/
def tip (k : κ) (log : List α) : Option α := (chain p k log).getLast?

/-- The number after a tip. -/
def nextNumber (t : Option α) : Int :=
  match t with
  | none => 0
  | some x => p.number x + 1

/-- The entry with the highest number, the first of them if there are several. -/
def highest (number : α → Int) (log : List α) : Option α :=
  log.foldl (fun best x =>
    match best with
    | none => some x
    | some b => if number b < number x then some x else some b) none

/-- Every entry continues the chain of its key. -/
inductive Chained : List α → Prop
  | nil : Chained []
  | snoc {log : List α} {x : α} (h : Chained log)
      (number : p.number x = nextNumber p (tip p (p.key x) log))
      (link : p.link x = (tip p (p.key x) log).map p.digest) : Chained (log ++ [x])

theorem chain_append (k : κ) (log log' : List α) :
    chain p k (log ++ log') = chain p k log ++ chain p k log' :=
  List.filter_append ..

theorem chain_snoc (k : κ) (log : List α) (x : α) :
    chain p k (log ++ [x]) = if p.key x = k then chain p k log ++ [x] else chain p k log := by
  rw [chain_append]
  by_cases hk : p.key x = k
  · simp [chain, hk]
  · simp [chain, hk]

theorem tip_snoc (k : κ) (log : List α) (x : α) :
    tip p k (log ++ [x]) = if p.key x = k then some x else tip p k log := by
  unfold tip
  rw [chain_snoc]
  by_cases hk : p.key x = k
  · simp [hk]
  · simp [hk]

variable {p}

variable {log : List α}

/-- The last entry of a chained log continued its chain. -/
theorem Chained.snoc_inv {x : α} (h : Chained p (log ++ [x])) :
    Chained p log ∧ p.number x = nextNumber p (tip p (p.key x) log) ∧
      p.link x = (tip p (p.key x) log).map p.digest := by
  generalize hall : log ++ [x] = all at h
  cases h with
  | nil => simp at hall
  | @snoc log' y hlog hnumber hlink =>
    obtain ⟨rfl, hxy⟩ := List.append_inj' hall rfl
    obtain rfl : x = y := by simpa using hxy
    exact ⟨hlog, hnumber, hlink⟩

/-- What a writer finds by the highest number is the tip. -/
theorem highest_chain (h : Chained p log) (k : κ) :
    highest p.number (chain p k log) = tip p k log := by
  induction h with
  | nil => rfl
  | @snoc log y hlog hnumber hlink ih =>
    rw [chain_snoc, tip_snoc]
    by_cases hk : p.key y = k
    · rw [if_pos hk, if_pos hk, highest, List.foldl_append, ← highest, ih]
      cases htip : tip p k log with
      | none => rfl
      | some t =>
        rw [hk, htip, nextNumber] at hnumber
        have hlt : p.number t < p.number y := by omega
        simp [hlt]
    · rw [if_neg hk, if_neg hk]
      exact ih

end IntegrityGuardian.Library.KeyedChain
