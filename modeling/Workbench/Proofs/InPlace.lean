/-! # Work carried out in place

A function that gives the next state only if it succeeds has no state to show for a refusal.
Work in place changes a state where it stands, one check or change after the other, and what
was changed before a check fails stays changed. That both ways come to the same, for tabs and
for the tree, says that all checks are made before the first change. -/

namespace Workbench

/-- Work on a state that may fail, and then leaves the state as far as it has come. -/
abbrev InPlace (ε σ α : Type) := ExceptT ε (StateM σ) α

namespace InPlace

variable {ε σ α β γ κ : Type} {state after : σ}

/-- The answer of the work, and the state it leaves. -/
def on (work : InPlace ε σ α) (state : σ) : Except ε α × σ := work.run.run state

/-- What is answered and left when a state is replaced by the next one, if there is one. -/
def answered (state : σ) : Except ε (α × σ) → Except ε α × σ
  | .ok (answer, after) => (.ok answer, after)
  | .error error => (.error error, state)

@[simp] theorem on_bind (work : InPlace ε σ α) (next : α → InPlace ε σ β) (state : σ) :
    on (work >>= next) state =
      match on work state with
      | (.ok a, after) => on (next a) after
      | (.error error, after) => (.error error, after) := by
  unfold on
  rw [ExceptT.run_bind, StateT.run_bind]
  rcases work.run.run state with ⟨_ | _, after⟩ <;> rfl

@[simp] theorem on_pure (a : α) (state : σ) :
    on (pure a : InPlace ε σ α) state = (.ok a, state) := rfl

@[simp] theorem on_throw (error : ε) (state : σ) :
    on (throw error : InPlace ε σ α) state = (.error error, state) := rfl

@[simp] theorem on_get (state : σ) : on (get : InPlace ε σ σ) state = (.ok state, state) := rfl

@[simp] theorem on_modify (f : σ → σ) (state : σ) :
    on (modify f : InPlace ε σ PUnit) state = (.ok ⟨⟩, f state) := rfl

theorem answered_eq_ok {whole : Except ε (α × σ)} {answer : α} :
    answered state whole = (.ok answer, after) ↔ whole = .ok (answer, after) := by
  cases whole with
  | ok result => simp [answered, Prod.ext_iff]
  | error error => simp [answered]

/-- What is replaced as a whole is left alone by a refusal. -/
theorem answered_eq_error {whole : Except ε (α × σ)} {error : ε} :
    answered state whole = (.error error, after) ↔ whole = .error error ∧ after = state := by
  cases whole with
  | ok result => simp [answered]
  | error refused => simp [answered, eq_comm]

/-- A loop none of whose passes fails. What a pass holds and the state it leaves are both read
off one value, and that goes through a loop of its own. -/
theorem on_foldlM {work : β → κ → InPlace ε σ β} {step : γ → κ → γ} (held : γ → β) (left : γ → σ)
    (h : ∀ c key, on (work (held c) key) (left c) = (.ok (held (step c key)), left (step c key)))
    (keys : List κ) (c : γ) :
    on (keys.foldlM work (held c)) (left c) =
      (.ok (held (keys.foldl step c)), left (keys.foldl step c)) := by
  induction keys generalizing c with
  | nil => rfl
  | cons key rest ih => rw [List.foldlM_cons, on_bind, h, List.foldl_cons, ← ih]

end InPlace

end Workbench
