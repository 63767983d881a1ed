import Mathlib.Logic.Relation
import Mathlib.Data.List.Forall2

/-!
# Atomic transactions on a shared state

A transaction reads and writes a private copy of the state and either commits
it or raises, in which case the copy is dropped.  Any interleaving of clients
that serialize their transactions is a list of calls, so properties of the
shared state are properties of `run`.  The rules below are the ones a proof
about such a system uses: inversion of a sequence of statements, a loop rule,
and invariants over whole runs.
-/

namespace IntegrityGuardian.Library

/-! ## Raising computations -/

variable {c : Prop} {α β ε : Type}

theorem ok_bind (a : α) (f : α → Except ε β) : ((Except.ok a : Except ε α) >>= f) = f a := rfl

theorem bind_eq_ok {x : Except ε α} {f : α → Except ε β} {b : β} :
    (x >>= f) = .ok b ↔ ∃ a, x = .ok a ∧ f a = .ok b := by
  cases x with
  | error e => simp [bind, Except.bind]
  | ok a => simp [bind, Except.bind]

theorem bind_eq_error {x : Except ε α} {f : α → Except ε β} {e : ε} :
    x >>= f = .error e ↔ x = .error e ∨ ∃ a, x = .ok a ∧ f a = .error e := by
  cases x with
  | error e' => simp [bind, Except.bind]
  | ok a => simp [bind, Except.bind]

/-- A check that raises unless `c` holds. -/
def ensure {ε : Type} (c : Prop) [Decidable c] (e : ε) : Except ε Unit :=
  if c then .ok () else .error e

@[simp] theorem ensure_eq_ok [Decidable c] {e : ε} : ensure c e = .ok () ↔ c := by
  unfold ensure
  split <;> simp_all

theorem ensure_of [Decidable c] (h : c) (e : ε) : ensure c e = .ok () :=
  ensure_eq_ok.2 h

theorem ensure_bind_eq_ok [Decidable c] {e : ε} {f : Unit → Except ε β}
    {b : β} : (ensure c e >>= f) = .ok b ↔ c ∧ f () = .ok b := by
  rw [bind_eq_ok]
  constructor
  · rintro ⟨⟨⟩, hc, hf⟩
    exact ⟨ensure_eq_ok.1 hc, hf⟩
  · rintro ⟨hc, hf⟩
    exact ⟨(), ensure_eq_ok.2 hc, hf⟩

theorem mapError_eq_ok {ε' : Type} {f : ε → ε'} {x : Except ε α} {a : α} :
    x.mapError f = .ok a ↔ x = .ok a := by
  cases x with
  | error e => simp [Except.mapError]
  | ok b => simp [Except.mapError]

theorem map_eq_ok {f : α → β} {x : Except ε α} {b : β} :
    x.map f = .ok b ↔ ∃ a, x = .ok a ∧ f a = b := by
  cases x with
  | error e => simp [Except.map]
  | ok a => simp [Except.map]

/-- A loop that collects results returns one for each item. -/
theorem mapM_eq_ok {f : α → Except ε β} {xs : List α} {ys : List β} :
    xs.mapM f = .ok ys ↔ List.Forall₂ (fun x y => f x = .ok y) xs ys := by
  induction xs generalizing ys with
  | nil =>
    rw [List.mapM_nil, List.forall₂_nil_left_iff]
    constructor
    · intro h
      cases h
      rfl
    · rintro rfl
      rfl
  | cons x xs ih =>
    rw [List.mapM_cons, bind_eq_ok, List.forall₂_cons_left_iff]
    constructor
    · rintro ⟨y, hy, h⟩
      obtain ⟨rest, hrest, h⟩ := bind_eq_ok.1 h
      cases h
      exact ⟨y, rest, hy, ih.1 hrest, rfl⟩
    · rintro ⟨y, rest, hy, hrest, rfl⟩
      exact ⟨y, hy, bind_eq_ok.2 ⟨rest, ih.2 hrest, rfl⟩⟩

theorem mapM_eq_ok_map {f : α → Except ε β} {g : α → β} {xs : List α}
    (h : ∀ x ∈ xs, f x = .ok (g x)) : xs.mapM f = .ok (xs.map g) := by
  rw [mapM_eq_ok, List.forall₂_map_right_iff, List.forall₂_same]
  exact h

theorem forM_eq_ok {f : α → Except ε Unit} {xs : List α} :
    xs.forM f = .ok () ↔ ∀ x ∈ xs, f x = .ok () := by
  induction xs with
  | nil => exact iff_of_true rfl (by simp)
  | cons x xs ih =>
    rw [List.forall_mem_cons, ← ih]
    show (f x >>= fun _ => xs.forM f) = .ok () ↔ _
    rw [bind_eq_ok]
    constructor
    · rintro ⟨⟨⟩, hx, hxs⟩
      exact ⟨hx, hxs⟩
    · rintro ⟨hx, hxs⟩
      exact ⟨(), hx, hxs⟩

/-! ## Transactions -/

/-- Statements inside a transaction over `σ` that can raise `ε`. -/
abbrev Tx (σ ε : Type) := StateT σ (Except ε)

namespace Tx

variable {σ ε α β : Type}

/-- A computation outside the shared state. -/
def lift (x : Except ε α) : Tx σ ε α := fun s => x.map (·, s)

variable {x : Except ε α} {u : PUnit} {f : PUnit → Tx σ ε β} {a : α} {b : β} {e : ε} {s s' t : σ}

theorem bind_eq_ok {x : Tx σ ε α} {f : α → Tx σ ε β} :
    (x >>= f) s = .ok (b, s') ↔ ∃ a t, x s = .ok (a, t) ∧ f a t = .ok (b, s') := by
  show (StateT.bind x f) s = .ok (b, s') ↔ _
  unfold StateT.bind
  rw [Library.bind_eq_ok]
  constructor
  · rintro ⟨⟨a, t⟩, hx, hf⟩
    exact ⟨a, t, hx, hf⟩
  · rintro ⟨a, t, hx, hf⟩
    exact ⟨(a, t), hx, hf⟩

@[simp] theorem pure_eq_ok {b : α} : (pure a : Tx σ ε α) s = .ok (b, s') ↔ a = b ∧ s = s' := by
  show Except.ok (a, s) = .ok (b, s') ↔ _
  simp

@[simp] theorem modify_eq_ok {f : σ → σ} :
    (modify f : Tx σ ε PUnit) s = .ok (u, s') ↔ f s = s' := by
  show Except.ok (PUnit.unit, f s) = .ok (u, s') ↔ _
  simp

@[simp] theorem throw_eq_ok : (throw e : Tx σ ε α) s = .ok (a, s') ↔ False := by
  show Except.error e = .ok (a, s') ↔ _
  simp

@[simp] theorem lift_eq_ok : (lift x : Tx σ ε α) s = .ok (a, s') ↔ x = .ok a ∧ s = s' := by
  unfold lift
  cases x with
  | error e => simp [Except.map]
  | ok b => simp [Except.map]

/-! Inversion of a statement followed by the rest of the transaction. -/

theorem get_bind_eq_ok {f : σ → Tx σ ε β} :
    (get >>= f) s = .ok (b, s') ↔ f s s = .ok (b, s') := Iff.rfl

theorem set_bind_eq_ok : (set t >>= f) s = .ok (b, s') ↔ f ⟨⟩ t = .ok (b, s') := Iff.rfl

theorem modify_bind_eq_ok {g : σ → σ} :
    (modify g >>= f) s = .ok (b, s') ↔ f ⟨⟩ (g s) = .ok (b, s') := Iff.rfl

theorem throw_bind_eq_ok {f : α → Tx σ ε β} :
    ((throw e : Tx σ ε α) >>= f) s = .ok (b, s') ↔ False := by
  simp [bind_eq_ok]

theorem lift_bind_eq_ok {f : α → Tx σ ε β} :
    (lift x >>= f) s = .ok (b, s') ↔ ∃ a, x = .ok a ∧ f a s = .ok (b, s') := by
  rw [bind_eq_ok]
  constructor
  · rintro ⟨a, t, hx, h⟩
    obtain ⟨hxa, hst⟩ := lift_eq_ok.1 hx
    exact ⟨a, hxa, hst ▸ h⟩
  · rintro ⟨a, hx, h⟩
    exact ⟨a, s, lift_eq_ok.2 ⟨hx, rfl⟩, h⟩

theorem map_eq_ok {x : Tx σ ε α} {f : α → β} :
    (f <$> x) s = .ok (b, s') ↔ ∃ a, x s = .ok (a, s') ∧ f a = b := by
  rw [map_eq_pure_bind, bind_eq_ok]
  constructor
  · rintro ⟨a, t, hx, h⟩
    obtain ⟨hb, ht⟩ := pure_eq_ok.1 h
    exact ⟨a, ht ▸ hx, hb⟩
  · rintro ⟨a, hx, hb⟩
    exact ⟨a, s', hx, pure_eq_ok.2 ⟨hb, rfl⟩⟩

/-- A guard that raises. -/
theorem guard_bind_eq_ok {c : Prop} [Decidable c] :
    (if c then (throw e : Tx σ ε PUnit) >>= f else f ⟨⟩) s = .ok (b, s') ↔
      ¬c ∧ f ⟨⟩ s = .ok (b, s') := by
  by_cases hc : c
  · simp [hc, throw_bind_eq_ok]
  · simp [hc]

/-- Loop rule: the invariant is indexed by the elements still to be visited. -/
theorem forM_invariant {body : α → Tx σ ε PUnit} (I : List α → σ → Prop)
    (hbody : ∀ x xs s s', I (x :: xs) s → body x s = .ok (⟨⟩, s') → I xs s')
    {xs : List α} (hI : I xs s) (h : xs.forM body s = .ok (⟨⟩, s')) : I [] s' := by
  induction xs generalizing s with
  | nil =>
    obtain ⟨-, rfl⟩ := pure_eq_ok.1 h
    exact hI
  | cons x xs ih =>
    have hseq : (body x >>= fun _ => xs.forM body) s = .ok (⟨⟩, s') := h
    obtain ⟨⟨⟩, t, hx, hxs⟩ := bind_eq_ok.1 hseq
    exact ih (hbody x xs s t hI hx) hxs

end Tx

/-! ## Runs -/

section Runs

variable {σ κ ρ ε : Type}

/-- The state after one call: a call that raises leaves no trace. -/
def after (exec : κ → σ → Except ε (ρ × σ)) (s : σ) (call : κ) : σ :=
  match exec call s with
  | .ok (_, s') => s'
  | .error _ => s

/-- The state after a sequence of calls, whoever makes them. -/
def run (exec : κ → σ → Except ε (ρ × σ)) (s : σ) (calls : List κ) : σ :=
  calls.foldl (after exec) s

variable {exec : κ → σ → Except ε (ρ × σ)}

variable {calls : List κ} {call : κ} {r : ρ} {s : σ}

theorem after_of_ok {s' : σ} (h : exec call s = .ok (r, s')) : after exec s call = s' := by
  simp [after, h]

theorem after_cases (exec : κ → σ → Except ε (ρ × σ)) (s : σ) (call : κ) :
    (∃ r, exec call s = .ok (r, after exec s call)) ∨
      ((∃ e, exec call s = .error e) ∧ after exec s call = s) := by
  unfold after
  cases h : exec call s with
  | error e => exact Or.inr ⟨⟨e, rfl⟩, rfl⟩
  | ok p => exact Or.inl ⟨p.1, rfl⟩

@[simp] theorem run_nil (s : σ) : run exec s [] = s := rfl

@[simp] theorem run_cons (s : σ) (call : κ) (calls : List κ) :
    run exec s (call :: calls) = run exec (after exec s call) calls := rfl

theorem run_append (s : σ) (calls calls' : List κ) :
    run exec s (calls ++ calls') = run exec (run exec s calls) calls' :=
  List.foldl_append

/-- What each call of a run returned or raised. -/
def trace (exec : κ → σ → Except ε (ρ × σ)) : σ → List κ → List (κ × Except ε ρ)
  | _, [] => []
  | s, call :: calls => (call, (exec call s).map Prod.fst) :: trace exec (after exec s call) calls

/-- A trace that splits comes from a run that splits. -/
theorem trace_eq_append {first second : List (κ × Except ε ρ)}
    (h : trace exec s calls = first ++ second) :
    ∃ before rest, calls = before ++ rest ∧ trace exec s before = first ∧
      trace exec (run exec s before) rest = second := by
  induction first generalizing s calls with
  | nil => exact ⟨[], calls, rfl, rfl, h⟩
  | cons entry first ih =>
    cases calls with
    | nil => cases h
    | cons call calls =>
      obtain ⟨hentry, hrest⟩ := List.cons.inj h
      obtain ⟨before, rest, rfl, hbefore, hrest⟩ := ih hrest
      exact ⟨call :: before, rest, rfl, by rw [trace, hentry, hbefore], hrest⟩

/-- The first call of a trace, when it returned. -/
theorem trace_eq_cons
    {rest : List (κ × Except ε ρ)} (h : trace exec s calls = (call, .ok r) :: rest) :
    ∃ s' calls', calls = call :: calls' ∧ exec call s = .ok (r, s') ∧
      trace exec s' calls' = rest := by
  cases calls with
  | nil => cases h
  | cons first calls =>
    obtain ⟨hentry, hrest⟩ := List.cons.inj h
    obtain ⟨rfl, hr⟩ := Prod.mk.inj hentry
    cases hexec : exec first s with
    | error e => simp [hexec, Except.map] at hr
    | ok p =>
      simp only [hexec, Except.map, Except.ok.injEq] at hr
      refine ⟨p.2, calls, rfl, by rw [← hr], ?_⟩
      rw [after_of_ok hexec] at hrest
      exact hrest

/-- A call that returned did so from a state of the run. -/
theorem mem_trace (h : (call, .ok r) ∈ trace exec s calls) :
    ∃ before s' rest, calls = before ++ call :: rest ∧
      exec call (run exec s before) = .ok (r, s') := by
  induction calls generalizing s with
  | nil => cases h
  | cons first calls ih =>
    rcases List.mem_cons.1 h with heq | hmem
    · obtain ⟨rfl, hr⟩ := Prod.mk.inj heq
      cases hexec : exec call s with
      | error e => simp [hexec, Except.map] at hr
      | ok p =>
        simp only [hexec, Except.map, Except.ok.injEq] at hr
        exact ⟨[], p.2, calls, rfl, by rw [run_nil, hexec, hr]⟩
    · obtain ⟨before, s', rest, rfl, hexec⟩ := ih hmem
      exact ⟨first :: before, s', rest, rfl, hexec⟩

/-- Accounting: a measure that grows by one with every committed call of a kind,
and with no other, counts the calls of that kind. -/
theorem countP_trace {I : σ → Prop} {count : σ → Nat} {kind : κ × Except ε ρ → Bool}
    (hstep : ∀ s call r s', I s → exec call s = .ok (r, s') →
      I s' ∧ count s' = count s + if kind (call, .ok r) then 1 else 0)
    (herror : ∀ call e, kind (call, .error e) = false) {s : σ} (hs : I s) (calls : List κ) :
    count s + (trace exec s calls).countP kind = count (run exec s calls) := by
  induction calls generalizing s with
  | nil => rfl
  | cons call calls ih =>
    rw [run_cons, trace, List.countP_cons]
    cases hexec : exec call s with
    | error e =>
      have hafter : after exec s call = s := by simp [after, hexec]
      have hih := ih hs
      rw [hafter]
      simp only [Except.map, herror, Bool.false_eq_true, if_false]
      exact hih
    | ok p =>
      obtain ⟨hI, hcount⟩ := hstep s call p.1 p.2 hs hexec
      have hih := ih hI
      rw [after_of_ok hexec, ← hih, hcount]
      simp only [Except.map]
      by_cases hkind : kind (call, .ok p.1) = true
      · simp only [hkind, if_true]
        omega
      · simp only [hkind]
        omega

/-- What every committed call preserves holds after every run. -/
theorem run_invariant {I : σ → Prop}
    (hstep : ∀ s call r s', I s → exec call s = .ok (r, s') → I s') {s : σ} (hs : I s)
    (calls : List κ) : I (run exec s calls) := by
  induction calls generalizing s with
  | nil => exact hs
  | cons call calls ih =>
    rw [run_cons]
    apply ih
    rcases after_cases exec s call with ⟨r, h⟩ | ⟨-, h⟩
    · exact hstep s call r _ hs h
    · rw [h]
      exact hs

/-- Induction over a run together with what its calls returned or raised. -/
theorem run_trace_invariant {I : List (κ × Except ε ρ) → σ → Prop}
    (hok : ∀ past s call r s', I past s → exec call s = .ok (r, s') →
      I (past ++ [(call, .ok r)]) s')
    (herror : ∀ past s call e, I past s → exec call s = .error e →
      I (past ++ [(call, .error e)]) s)
    {past : List (κ × Except ε ρ)} {s : σ} (hs : I past s) (calls : List κ) :
    I (past ++ trace exec s calls) (run exec s calls) := by
  induction calls generalizing past s with
  | nil => simpa [trace] using hs
  | cons call calls ih =>
    have hstep : I (past ++ [(call, (exec call s).map Prod.fst)]) (after exec s call) := by
      cases hexec : exec call s with
      | error e => simpa [after, hexec, Except.map] using herror past s call e hs hexec
      | ok p => simpa [after, hexec, Except.map] using hok past s call p.1 p.2 hs hexec
    simpa [trace] using ih hstep

/-- A reflexive and transitive relation that every committed call respects, from
states of an invariant, relates the two ends of every run. -/
theorem run_relates {I : σ → Prop} {R : σ → σ → Prop} (hrefl : ∀ s, R s s)
    (htrans : ∀ s t u, R s t → R t u → R s u)
    (hstep : ∀ s call r s', I s → exec call s = .ok (r, s') → I s' ∧ R s s') {s : σ} (hs : I s)
    (calls : List κ) : R s (run exec s calls) := by
  induction calls generalizing s with
  | nil => exact hrefl s
  | cons call calls ih =>
    rw [run_cons]
    rcases after_cases exec s call with ⟨r, h⟩ | ⟨-, h⟩
    · obtain ⟨hI, hR⟩ := hstep s call r _ hs h
      exact htrans _ _ _ hR (ih hI)
    · rw [h]
      exact ih hs

end Runs

end IntegrityGuardian.Library
