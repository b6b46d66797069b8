import Dialogue.Proofs.Run
import Dialogue.Store.Program

/-!
# Runs from related states

Two states that are related agree on the part of them that somebody can see.  A run *agrees* on
related states if it comes to the same result from both and leaves them related (`Run.Agrees`): it
reads and writes what can be seen, and nothing else.  A run *spares* what can be seen if the state
after it is related to whatever the state before it was related to (`Run.Spares`).

Both carry over from the accesses of a program to the program
(`Program.agrees_of_makes`, `Program.spares_of_makes`).

Two different runs cannot be told apart if they go side by side, one success against the other, or
one failure against the other, and leave what is related behind.  Their outcomes are *coupled* then
(`Run.Coupled`), and sequences are coupled if their parts are (`Run.Coupled.bind`).
-/

namespace Dialogue

namespace Run

variable {σ τ α β ε : Type} {R : σ → σ → Prop}

/-- From related states, the run comes to the same result and to related states. -/
def Agrees (R : σ → σ → Prop) (m : Run σ α) : Prop :=
  ∀ s s', R s s' → (m s).1 = (m s').1 ∧ R (m s).2 (m s').2

/-- The run leaves a state related to what it was related to before. -/
def Spares (R : σ → σ → Prop) (m : Run σ α) : Prop := ∀ s s', R s s' → R (m s).2 s'

/-- States with a log are related as the states without it are. -/
def Silent (R : σ → σ → Prop) (t t' : Traced σ) : Prop := R t.state t'.state

/-- A property that sequences of runs inherit from their parts. -/
structure Composes (K : {α : Type} → Run σ α → Prop) : Prop where
  pure {α : Type} (a : α) : K (Pure.pure a : Run σ α)
  fail {α : Type} (f : Failure) : K (Run.fail f : Run σ α)
  bind {α β : Type} {m : Run σ α} {k : α → Run σ β} : K m → (∀ a, K (k a)) → K (m >>= k)

theorem Composes.ofExcept {K : {α : Type} → Run σ α → Prop} (hcomposes : Composes K)
    (f : ε → Failure) (r : Except ε α) : K (Run.ofExcept f r : Run σ α) := by
  cases r with
  | ok a => exact hcomposes.pure a
  | error e => exact hcomposes.fail (f e)

theorem agrees_pure (a : α) : Agrees R (Pure.pure a : Run σ α) :=
  fun _ _ hrelated => ⟨rfl, hrelated⟩

theorem agrees_fail (f : Failure) : Agrees R (Run.fail f : Run σ α) :=
  fun _ _ hrelated => ⟨rfl, hrelated⟩

theorem Agrees.bind {m : Run σ α} {k : α → Run σ β} (hfirst : Agrees R m)
    (hsecond : ∀ a, Agrees R (k a)) : Agrees R (m >>= k) := by
  intro s s' hrelated
  obtain ⟨hsame, hafter⟩ := hfirst s s' hrelated
  rcases hran : m s with ⟨r, t⟩
  rcases hran' : m s' with ⟨r', t'⟩
  rw [hran, hran'] at hsame hafter
  obtain rfl : r = r' := hsame
  cases r with
  | error f => rw [bind_error hran, bind_error hran']; exact ⟨rfl, hafter⟩
  | ok a => rw [bind_ok hran, bind_ok hran']; exact hsecond a t t' hafter

theorem Spares.bind {m : Run σ α} {k : α → Run σ β} (hfirst : Spares R m)
    (hsecond : ∀ a, Spares R (k a)) : Spares R (m >>= k) := by
  intro s s' hrelated
  have hafter := hfirst s s' hrelated
  rcases hran : m s with ⟨f | a, t⟩
  · rw [bind_error hran]
    rwa [hran] at hafter
  · rw [bind_ok hran]
    rw [hran] at hafter
    exact hsecond a t s' hafter

theorem composes_agrees (R : σ → σ → Prop) : Composes fun {_} (m : Run σ _) => Agrees R m :=
  ⟨agrees_pure, agrees_fail, Agrees.bind⟩

theorem composes_spares (R : σ → σ → Prop) : Composes fun {_} (m : Run σ _) => Spares R m :=
  ⟨fun _ _ _ hrelated => hrelated, fun _ _ _ hrelated => hrelated, Spares.bind⟩

theorem spares_of_eq {m : Run σ α} (hsame : ∀ s, (m s).2 = s) : Spares R m :=
  fun s s' hrelated => by rwa [hsame s]

theorem agrees_note (e : Event) : Agrees (Silent R) (Run.note e) :=
  fun _ _ hrelated => ⟨rfl, hrelated⟩

theorem spares_note (e : Event) : Spares (Silent R) (Run.note e) := fun _ _ hrelated => hrelated

theorem Agrees.silently {m : Run σ α} (hagrees : Agrees R m) :
    Agrees (Silent R) (Run.silently m) :=
  fun t t' hrelated => hagrees t.state t'.state hrelated

theorem Spares.silently {m : Run σ α} (hspares : Spares R m) :
    Spares (Silent R) (Run.silently m) :=
  fun t t' hrelated => hspares t.state t'.state hrelated

/-! ## Two runs side by side -/

section

variable {σ τ σ' τ' α β γ δ : Type} {E : σ → τ → Prop} {Q : α → β → σ → τ → Prop}
  {x : Except Failure α × σ} {y : Except Failure β × τ}

/-- Two outcomes are successes with results and states that are related, or failures in states that
are related all the same. -/
inductive Coupled (E : σ → τ → Prop) (Q : α → β → σ → τ → Prop) :
    Except Failure α × σ → Except Failure β × τ → Prop where
  | ok {a b s t} (related : Q a b s t) : Coupled E Q (.ok a, s) (.ok b, t)
  | error {f g s t} (related : E s t) : Coupled E Q (.error f, s) (.error g, t)

theorem Coupled.mono {Q' : α → β → σ → τ → Prop} (hcoupled : Coupled E Q x y)
    (hrelated : ∀ a b s t, Q a b s t → Q' a b s t) : Coupled E Q' x y := by
  cases hcoupled with
  | ok hfirst => exact .ok (hrelated _ _ _ _ hfirst)
  | error hfirst => exact .error hfirst

theorem Coupled.states (hcoupled : Coupled E Q x y) (hrelated : ∀ a b s t, Q a b s t → E s t) :
    E x.2 y.2 := by
  cases hcoupled with
  | ok hfirst => exact hrelated _ _ _ _ hfirst
  | error hfirst => exact hfirst

theorem Coupled.bind {Q' : γ → δ → σ → τ → Prop} {m : Run σ α} {m' : Run τ β}
    {k : α → Run σ γ} {k' : β → Run τ δ} {s : σ} {t : τ} (hfirst : Coupled E Q (m s) (m' t))
    (hsecond : ∀ a b s t, Q a b s t → Coupled E Q' (k a s) (k' b t)) :
    Coupled E Q' ((m >>= k) s) ((m' >>= k') t) := by
  rcases hran : m s with ⟨r, s₁⟩
  rcases hran' : m' t with ⟨r', t₁⟩
  rw [hran, hran'] at hfirst
  cases hfirst with
  | ok hrelated =>
    rw [bind_ok hran, bind_ok hran']
    exact hsecond _ _ _ _ hrelated
  | error hrelated =>
    rw [bind_error hran, bind_error hran']
    exact .error hrelated

/-- What is coupled on parts of states is coupled on the states. -/
theorem Coupled.zoom {E' : σ' → τ' → Prop} {Q' : α → β → σ' → τ' → Prop} {m : Run σ' α}
    {m' : Run τ' β} {get : σ → σ'} {put : σ' → σ → σ} {get' : τ → τ'} {put' : τ' → τ → τ} {s : σ}
    {t : τ} (hpart : Coupled E' Q' (m (get s)) (m' (get' t)))
    (hok : ∀ a b s' t', Q' a b s' t' → Q a b (put s' s) (put' t' t))
    (herror : ∀ s' t', E' s' t' → E (put s' s) (put' t' t)) :
    Coupled E Q (Run.zoom get put m s) (Run.zoom get' put' m' t) := by
  rw [Run.zoom_apply, Run.zoom_apply]
  generalize m (get s) = x at hpart
  generalize m' (get' t) = y at hpart
  cases hpart with
  | ok hrelated => exact .ok (hok _ _ _ _ hrelated)
  | error hrelated => exact .error (herror _ _ hrelated)

end

end Run

namespace Program

variable {σ α : Type} {R : σ → σ → Prop} {access : (a : Store.Access) → Run σ a.Answer}
  {log : Event → σ → σ} {Allowed : Store.Access → Prop}

/-- All accesses that a program may make, whatever it is answered, are allowed. -/
inductive Makes (Allowed : Store.Access → Prop) : Program α → Prop where
  | done (a : α) : Makes Allowed (.done a)
  | fail (f : Failure) : Makes Allowed (.fail f)
  | log (e : Event) {next : Program α} (rest : Makes Allowed next) : Makes Allowed (.log e next)
  | access {a : Store.Access} {next : a.Answer → Program α} (allowed : Allowed a)
      (rest : ∀ r, Makes Allowed (next r)) : Makes Allowed (.access a next)

theorem Makes.bind {β : Type} {p : Program α} {k : α → Program β} (hmakes : p.Makes Allowed)
    (hgoesOn : ∀ a, (k a).Makes Allowed) : (p.bind k).Makes Allowed := by
  induction hmakes with
  | done a => exact hgoesOn a
  | fail f => exact .fail f
  | log e hrest ih => exact .log e ih
  | access hallowed hrest ih => exact .access hallowed ih

theorem makes_ofExcept {ε : Type} (f : ε → Failure) (r : Except ε α) :
    (Program.ofExcept f r).Makes Allowed := by
  cases r with
  | ok a => exact .done a
  | error e => exact .fail (f e)

theorem makes_tellAll (events : List Event) : (tellAll events).Makes Allowed := by
  induction events with
  | nil => exact .done ()
  | cons e rest ih => exact .log e ih

/-- A program agrees on related states if its accesses do. -/
theorem agrees_of_makes (hlogs : ∀ e s s', R s s' → R (log e s) (log e s'))
    (hagrees : ∀ a, Allowed a → Run.Agrees R (access a)) {p : Program α}
    (hmakes : p.Makes Allowed) :
    Run.Agrees R (p.run access log) := by
  induction hmakes with
  | done a => exact Run.agrees_pure a
  | fail f => exact Run.agrees_fail f
  | log e hrest ih => exact fun s s' hrelated => ih _ _ (hlogs e s s' hrelated)
  | access hallowed hrest ih => exact (hagrees _ hallowed).bind ih

/-- A program spares what can be seen if its accesses do. -/
theorem spares_of_makes (hlogs : ∀ e s s', R s s' → R (log e s) s')
    (hspares : ∀ a, Allowed a → Run.Spares R (access a)) {p : Program α}
    (hmakes : p.Makes Allowed) :
    Run.Spares R (p.run access log) := by
  induction hmakes with
  | done a => exact fun s s' hrelated => hrelated
  | fail f => exact fun s s' hrelated => hrelated
  | log e hrest ih => exact fun s s' hrelated => ih _ _ (hlogs e s s' hrelated)
  | access hallowed hrest ih => exact (hspares _ hallowed).bind ih

end Program

end Dialogue
