import Mathlib.Logic.Basic

/-!
# Programs whose failures leave a state behind

A transaction that fails is undone.  A program over a file system is not: what
it wrote before it raised, or before its process died, stays.  Such a program is
an `ExceptT` over its state, and `Ensures` is its rule of pre- and
postconditions, with one postcondition for returning and one for failing.
-/

namespace IntegrityGuardian.Library

/-- A program that may fail and whose effects stay when it does. -/
abbrev Durable (σ ε : Type) := ExceptT ε (StateM σ)

namespace Durable

variable {σ ε α β : Type}

/-- The outcome of a program and the state it leaves. -/
def exec (prog : Durable σ ε α) (s : σ) : Except ε α × σ := (ExceptT.run prog).run s

/-- A computation outside the state. -/
def lift (x : Except ε α) : Durable σ ε α := ExceptT.mk (pure x)

@[simp] theorem exec_pure (a : α) (s : σ) : exec (pure a : Durable σ ε α) s = (.ok a, s) := rfl

@[simp] theorem exec_throw (e : ε) (s : σ) :
    exec (throw e : Durable σ ε α) s = (.error e, s) := rfl

@[simp] theorem exec_get (s : σ) : exec (get : Durable σ ε σ) s = (.ok s, s) := rfl

@[simp] theorem exec_set (t s : σ) : exec (set t : Durable σ ε PUnit) s = (.ok ⟨⟩, t) := rfl

@[simp] theorem exec_modify (f : σ → σ) (s : σ) :
    exec (modify f : Durable σ ε PUnit) s = (.ok ⟨⟩, f s) := rfl

@[simp] theorem exec_lift (x : Except ε α) (s : σ) : exec (lift x : Durable σ ε α) s = (x, s) := rfl

theorem exec_bind (prog : Durable σ ε α) (next : α → Durable σ ε β) (s : σ) :
    exec (prog >>= next) s =
      match exec prog s with
      | (.ok a, t) => exec (next a) t
      | (.error e, t) => (.error e, t) := by
  show (ExceptT.bind prog next).run.run s = _
  unfold exec
  simp only [ExceptT.bind, ExceptT.mk, ExceptT.run, StateT.run, bind, StateT.bind]
  cases h : prog s with
  | mk result t =>
    cases result with
    | ok a => rfl
    | error e => rfl

@[simp] theorem exec_map (f : α → β) (prog : Durable σ ε α) (s : σ) :
    exec (f <$> prog) s = ((exec prog s).1.map f, (exec prog s).2) := by
  rw [← bind_pure_comp, exec_bind]
  cases exec prog s with
  | mk result t => cases result <;> rfl

/-- A program on one part of the state. -/
def zoom {τ : Type} (part : σ → τ) (replace : σ → τ → σ) (prog : Durable τ ε α) : Durable σ ε α :=
  ExceptT.mk fun s =>
    let result := exec prog (part s)
    (result.1, replace s result.2)

@[simp] theorem exec_zoom {τ : Type} (part : σ → τ) (replace : σ → τ → σ) (prog : Durable τ ε α)
    (s : σ) : exec (zoom part replace prog) s
      = ((exec prog (part s)).1, replace s (exec prog (part s)).2) := rfl

/-- An outcome in one of the two postconditions. -/
def Meets (post : α → σ → Prop) (fail : ε → σ → Prop) : Except ε α × σ → Prop
  | (.ok a, t) => post a t
  | (.error e, t) => fail e t

/-- Whenever `pre` holds, the program returns in `post` or fails in `fail`. -/
structure Ensures (pre : σ → Prop) (prog : Durable σ ε α) (post : α → σ → Prop)
    (fail : ε → σ → Prop) : Prop where
  meets : ∀ s, pre s → Meets post fail (exec prog s)

section
variable {pre : σ → Prop} {prog : Durable σ ε α} {post : α → σ → Prop} {fail : ε → σ → Prop}

variable {a : α} {post' : α → σ → Prop} {e : ε} {fail' : ε → σ → Prop} {pre' : σ → Prop}

theorem Ensures.of_ok (h : Ensures pre prog post fail) {s t : σ} (hs : pre s)
    (hexec : exec prog s = (.ok a, t)) : post a t := by
  have hpost := h.meets s hs
  rw [hexec] at hpost
  exact hpost

theorem Ensures.of_error (h : Ensures pre prog post fail) {s t : σ} (hs : pre s)
    (hexec : exec prog s = (.error e, t)) : fail e t := by
  have hfail := h.meets s hs
  rw [hexec] at hfail
  exact hfail

theorem ensures_pure (h : ∀ s, pre s → post a s) :
    Ensures pre (pure a : Durable σ ε α) post fail := ⟨h⟩

theorem ensures_throw (h : ∀ s, pre s → fail e s) :
    Ensures pre (throw e : Durable σ ε α) post fail := ⟨h⟩

theorem ensures_lift (pre : σ → Prop) (x : Except ε α) :
    Ensures pre (lift x : Durable σ ε α) (fun a s => x = .ok a ∧ pre s)
      (fun e s => x = .error e ∧ pre s) := by
  refine ⟨fun s hs => ?_⟩
  rw [exec_lift]
  cases x with
  | ok a => exact ⟨rfl, hs⟩
  | error e => exact ⟨rfl, hs⟩

/-- A precondition that never holds. -/
theorem ensures_absurd (h : ∀ s, ¬pre s) : Ensures pre prog post fail :=
  ⟨fun s hs => absurd hs (h s)⟩

/-- Sequential composition. -/
theorem Ensures.bind {m : α → σ → Prop} {next : α → Durable σ ε β} {post' : β → σ → Prop}
    (h : Ensures pre prog m fail) (hnext : ∀ a, Ensures (m a) (next a) post' fail) :
    Ensures pre (prog >>= next) post' fail := by
  refine ⟨fun s hs => ?_⟩
  rw [exec_bind]
  have hprog := h.meets s hs
  revert hprog
  cases exec prog s with
  | mk result t =>
    cases result with
    | ok a => exact fun hmid => (hnext a).meets t hmid
    | error e => exact id

/-- Stronger precondition, weaker postconditions. -/
theorem Ensures.mono (h : Ensures pre prog post fail) (hpre : ∀ s, pre' s → pre s)
    (hpost : ∀ a s, post a s → post' a s) (hfail : ∀ e s, fail e s → fail' e s) :
    Ensures pre' prog post' fail' := by
  refine ⟨fun s hs => ?_⟩
  have hprog := h.meets s (hpre s hs)
  revert hprog
  cases exec prog s with
  | mk result t =>
    cases result with
    | ok a => exact hpost a t
    | error e => exact hfail e t

/-- Two specifications of one program. -/
theorem Ensures.and (h : Ensures pre prog post fail) (h' : Ensures pre' prog post' fail') :
    Ensures (fun s => pre s ∧ pre' s) prog (fun a s => post a s ∧ post' a s)
      (fun e s => fail e s ∧ fail' e s) := by
  refine ⟨fun s hs => ?_⟩
  have hleft := h.meets s hs.1
  have hright := h'.meets s hs.2
  revert hleft hright
  cases exec prog s with
  | mk result t =>
    cases result with
    | ok a => exact And.intro
    | error e => exact And.intro

end

end Durable

end IntegrityGuardian.Library
