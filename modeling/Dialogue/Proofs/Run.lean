import Dialogue.Run

/-!
# Runs, state by state

What a run comes to on a given state.  `bind_ok` and `bind_error` follow a sequence past a part
whose outcome is known; the other lemmas are the outcomes of single runs.
-/

namespace Dialogue

theorem exists_ok_of_bind {α β ε : Type} {x : Except ε α} {f : α → Except ε β} {b : β}
    (hmade : x >>= f = .ok b) : ∃ a, x = .ok a ∧ f a = .ok b := by
  cases x with
  | error e => cases hmade
  | ok a => exact ⟨a, rfl, hmade⟩

theorem error_of_bind {α β ε : Type} {x : Except ε α} {f : α → Except ε β} {e : ε}
    (hfailed : x >>= f = .error e) : x = .error e ∨ ∃ a, x = .ok a ∧ f a = .error e := by
  cases x with
  | error e' =>
    cases hfailed
    exact .inl rfl
  | ok a => exact .inr ⟨a, rfl, hfailed⟩

theorem eq_ok_of_toOption_eq_some {α ε : Type} {x : Except ε α} {a : α}
    (hmade : x.toOption = some a) : x = .ok a := by
  cases x with
  | error e => cases hmade
  | ok b =>
    cases hmade
    rfl

end Dialogue

namespace Dialogue.Run

variable {σ τ α β ε : Type}

theorem bind_ok {m : Run σ α} {k : α → Run σ β} {s t : σ} {a : α} (h : m s = (.ok a, t)) :
    (m >>= k) s = k a t := by
  show Run.bind m k s = _
  rw [Run.bind, h]

theorem bind_error {m : Run σ α} {k : α → Run σ β} {s t : σ} {f : Failure}
    (h : m s = (.error f, t)) : (m >>= k) s = (.error f, t) := by
  show Run.bind m k s = _
  rw [Run.bind, h]

theorem exists_of_bind {m : Run σ α} {k : α → Run σ β} {s u : σ} {b : β}
    (h : (m >>= k) s = (.ok b, u)) : ∃ a t, m s = (.ok a, t) ∧ k a t = (.ok b, u) := by
  change Run.bind m k s = _ at h
  rcases hfirst : m s with ⟨f | a, t⟩
  · rw [Run.bind, hfirst] at h
    cases h
  · rw [Run.bind, hfirst] at h
    exact ⟨a, t, rfl, h⟩

theorem bind_pure (m : Run σ α) : m >>= Pure.pure = m := by
  funext s
  rcases hran : m s with ⟨f | a, t⟩
  · exact bind_error hran
  · exact bind_ok hran

@[simp] theorem pure_apply (a : α) (s : σ) : (Pure.pure a : Run σ α) s = (.ok a, s) := rfl

@[simp] theorem fail_apply (f : Failure) (s : σ) : (Run.fail f : Run σ α) s = (.error f, s) := rfl

@[simp] theorem ofExcept_ok (f : ε → Failure) (a : α) (s : σ) :
    (Run.ofExcept f (.ok a) : Run σ α) s = (.ok a, s) := rfl

@[simp] theorem ofExcept_error (f : ε → Failure) (e : ε) (s : σ) :
    (Run.ofExcept f (.error e) : Run σ α) s = (.error (f e), s) := rfl

@[simp] theorem get_apply (s : σ) : (Run.get : Run σ σ) s = (.ok s, s) := rfl

@[simp] theorem read_apply (t : Traced σ) : Run.read t = (.ok t.state, t) := rfl

@[simp] theorem read_bind (k : σ → Run (Traced σ) β) (t : Traced σ) :
    (Run.read >>= k) t = k t.state t := rfl

@[simp] theorem write_apply (f : σ → σ) (t : Traced σ) :
    Run.write f t = (.ok (), { t with state := f t.state }) := rfl

@[simp] theorem write_bind (f : σ → σ) (k : Unit → Run (Traced σ) β) (t : Traced σ) :
    (Run.write f >>= k) t = k () { t with state := f t.state } := rfl

@[simp] theorem note_apply (e : Event) (t : Traced σ) : Run.note e t = (.ok (), t.log e) := rfl

@[simp] theorem note_bind (e : Event) (k : Unit → Run (Traced σ) β) (t : Traced σ) :
    (Run.note e >>= k) t = k () (t.log e) := rfl

theorem silently_apply (m : Run σ α) (t : Traced σ) :
    Run.silently m t = ((m t.state).1, { t with state := (m t.state).2 }) := rfl

theorem zoom_apply (get : σ → τ) (put : τ → σ → σ) (m : Run τ α) (s : σ) :
    Run.zoom get put m s = ((m (get s)).1, put (m (get s)).2 s) := rfl

end Dialogue.Run
