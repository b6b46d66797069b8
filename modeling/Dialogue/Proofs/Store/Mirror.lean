import Dialogue.Proofs.Store.Contents
import Dialogue.Proofs.Store.Trail

/-!
# Stores that mirror contents

A kind of store *mirrors* contents if every state of it shows some, and every access answers and
changes what the contents say (`Mirrors`).  An access may fail instead, and then the state shows the
same contents as before.  What the kind of store takes for granted never fails
(`Memory.Grants`); a flow and a conversation that are there are found whatever their names are.

A write may also leave the contents alone, where it cannot be told from what it is written over
(`Memory.Discerns`).  A safe program has to keep its invariant either way; for the rest a program is
to write only what can be told (`Program.Discerns`).

## Main statements

* `Mirrors.shows_trail`: in every state on the way of a program the store shows contents that keep
  an invariant, if the program keeps the invariant on contents (`Program.Safe`).
* `Mirrors.run_eq`: a program comes to the same as on the contents, if all its accesses are taken.
-/

namespace Dialogue

open Keyed (keys)

namespace Store

/-- What contents let pass, for a kind of store that takes some accesses: a load of a flow that
cannot be read is none. -/
def Memory.Grants (now : String) (Takes : Access → Prop) (m : Memory) : Access → Prop
  | .loadFlow tenant name =>
    m.Reads now (flowKey tenant name) ∧
      (flowKey tenant name ∈ keys m.flows ∨ Takes (.loadFlow tenant name))
  | .fetchConversation tenant key =>
    (tenant, key) ∈ keys m.conversations ∨ Takes (.fetchConversation tenant key)
  | a => Takes a

/-- An access went as the contents say, or it failed and changed nothing that is shown.  Nothing may
have changed either where what was written counts as the same. -/
def Follows {σ : Type} (now : String) (Takes : Access → Prop) (Shows : σ → Memory → Prop)
    (m : Memory) (a : Access) : Except Failure a.Answer × σ → Prop
  | (.ok r, t) =>
    a.Same r (m.answer now a) ∧ (Shows t (m.after a) ∨ ¬ m.Discerns a ∧ Shows t m)
  | (.error _, t) => ¬ m.Grants now Takes a ∧ Shows t m

section

variable {σ : Type} {now : String} {Takes : Access → Prop} {Shows : σ → Memory → Prop} {m : Memory}
  {a : Access} {outcome : Except Failure a.Answer × σ} {t : σ}

theorem Follows.of_ok {r : a.Answer} (hran : outcome = (.ok r, t))
    (hsame : a.Same r (m.answer now a)) (hshows : Shows t (m.after a)) :
    Follows now Takes Shows m a outcome := by
  subst hran
  exact ⟨hsame, .inl hshows⟩

theorem Follows.of_idle {r : a.Answer} (hran : outcome = (.ok r, t))
    (hsame : a.Same r (m.answer now a)) (hidle : ¬ m.Discerns a) (hshows : Shows t m) :
    Follows now Takes Shows m a outcome := by
  subst hran
  exact ⟨hsame, .inr ⟨hidle, hshows⟩⟩

theorem Follows.shows {r : a.Answer} (hfollows : Follows now Takes Shows m a (.ok r, t))
    (hdiscerns : m.Discerns a) : Shows t (m.after a) :=
  hfollows.2.resolve_right fun hidle => hidle.1 hdiscerns

theorem Follows.of_error {f : Failure} (hran : outcome = (.error f, t))
    (hrefused : ¬ m.Grants now Takes a) (hshows : Shows t m) :
    Follows now Takes Shows m a outcome := by
  subst hran
  exact ⟨hrefused, hshows⟩

end

/-- A kind of store mirrors contents. -/
structure Mirrors {σ : Type} (access : (a : Access) → Run σ a.Answer) (log : Event → σ → σ)
    (now : String) (Takes : Access → Prop) (Shows : σ → Memory → Prop) : Prop where
  log : ∀ {s m} (e : Event), Shows s m → Shows (log e s) m
  access : ∀ {s m} (a : Access), Shows s m → m.Tidy → a.Proper →
    Follows now Takes Shows m a (access a s)

/-- An access to contents themselves. -/
def Memory.perform (now : String) (a : Access) : Run Memory a.Answer := fun m =>
  (.ok (m.answer now a), m.after a)

theorem Access.same_refl (a : Access) (r : a.Answer) : a.Same r r := by
  cases a <;> trivial

/-- The store in memory mirrors its contents and takes every access. -/
theorem mirrors_memory (now : String) :
    Mirrors (Memory.access now) Traced.log now (fun _ => True) fun t m => t.state = m where
  log _ hshows := hshows
  access := by
    rintro ⟨m, events⟩ _ a rfl htidy hproper
    rcases Memory.access_spec now htidy a events with
      hran | ⟨tenant, name, f, rfl, hunreadable, hran⟩
    · exact .of_ok hran (a.same_refl _) rfl
    · exact .of_error hran (fun hgrants => hunreadable hgrants.1) rfl

end Store

open Store

namespace Program

variable {α β : Type} {now : String} {P : Memory → Prop} {Q : Memory → α → Prop}

/-- On contents, a program makes proper accesses, keeps an invariant after each and ends with a
property.  It does not care where flows lie: after answers that are the same it goes on alike.  Nor
does it care whether a write that counts as the same was left out. -/
inductive Safe (now : String) (P : Memory → Prop) (Q : Memory → α → Prop) :
    Program α → Memory → Prop where
  | done {a : α} {m : Memory} (holds : Q m a) : Safe now P Q (.done a) m
  | fail {f : Failure} {m : Memory} : Safe now P Q (.fail f) m
  | log {e : Event} {next : Program α} {m : Memory} (rest : Safe now P Q next m) :
      Safe now P Q (.log e next) m
  | access {a : Access} {next : a.Answer → Program α} {m : Memory} (proper : a.Proper)
      (blind : ∀ r, a.Same r (m.answer now a) → next r = next (m.answer now a))
      (kept : P (m.after a)) (rest : Safe now P Q (next (m.answer now a)) (m.after a))
      (idle : ¬ m.Discerns a → Safe now P Q (next (m.answer now a)) m) :
      Safe now P Q (.access a next) m

/-- A safe program may begin with an access that writes over nothing. -/
theorem Safe.reading {a : Access} {next : a.Answer → Program α} {m : Memory} (hproper : a.Proper)
    (hblind : ∀ r, a.Same r (m.answer now a) → next r = next (m.answer now a))
    (hkept : P (m.after a)) (hrest : (next (m.answer now a)).Safe now P Q (m.after a))
    (hdiscerns : m.Discerns a) : (Program.access a next).Safe now P Q m :=
  .access hproper hblind hkept hrest fun hidle => absurd hdiscerns hidle

theorem Safe.bind {R : Memory → β → Prop} {p : Program α} {k : α → Program β} {m : Memory}
    (hsafe : p.Safe now P Q m) (hinv : P m)
    (hgoesOn : ∀ a m', P m' → Q m' a → (k a).Safe now P R m') : (p.bind k).Safe now P R m := by
  induction hsafe with
  | done holds => exact hgoesOn _ _ hinv holds
  | fail => exact .fail
  | log hrest ih => exact .log (ih hinv)
  | access hproper hblind hkept hrest hidle ih ih' =>
    exact .access hproper (fun r hsame => congrArg (Program.bind · k) (hblind r hsame)) hkept
      (ih hkept)
      fun hno => ih' hno hinv

/-- On contents, what a program writes can be told from what it is written over. -/
inductive Discerns (now : String) : Program α → Memory → Prop where
  | done {a : α} {m : Memory} : Discerns now (.done a) m
  | fail {f : Failure} {m : Memory} : Discerns now (.fail f) m
  | log {e : Event} {next : Program α} {m : Memory} (rest : Discerns now next m) :
      Discerns now (.log e next) m
  | access {a : Access} {next : a.Answer → Program α} {m : Memory} (told : m.Discerns a)
      (rest : ∀ r, a.Same r (m.answer now a) → Discerns now (next r) (m.after a)) :
      Discerns now (.access a next) m

theorem Discerns.of_log {e : Event} {next : Program α} {m : Memory}
    (hdiscerns : (Program.log e next).Discerns now m) : next.Discerns now m := by
  cases hdiscerns with
  | log hrest => exact hrest

theorem Discerns.of_access {a : Access} {next : a.Answer → Program α} {m : Memory}
    (hdiscerns : (Program.access a next).Discerns now m) :
    m.Discerns a ∧ ∀ r, a.Same r (m.answer now a) → (next r).Discerns now (m.after a) := by
  cases hdiscerns with
  | access htold hrest => exact ⟨htold, hrest⟩

theorem Discerns.bind {p : Program α} {k : α → Program β} {m : Memory}
    (hdiscerns : p.Discerns now m) (hgoesOn : ∀ a m', (k a).Discerns now m') :
    (p.bind k).Discerns now m := by
  induction hdiscerns with
  | done => exact hgoesOn _ _
  | fail => exact .fail
  | log hrest ih => exact .log ih
  | access htold hrest ih => exact .access htold ih

end Program

/-! ## Programs over a store that mirrors contents -/

namespace Store.Mirrors

variable {σ α : Type} {access : (a : Access) → Run σ a.Answer} {log : Event → σ → σ} {now : String}
  {Takes : Access → Prop} {Shows : σ → Memory → Prop} {P : Memory → Prop}
  {Q : Memory → α → Prop}

/-- After every access of a safe program, and after the whole program, the store shows contents that
keep the invariant. -/
theorem shows_trail (hmirrors : Mirrors access log now Takes Shows) (htidy : ∀ m, P m → m.Tidy)
    (p : Program α) {s : σ} {m : Memory} (hshows : Shows s m) (hinv : P m)
    (hsafe : p.Safe now P Q m) :
    (∀ t ∈ (p.trail access log s).filterMap Program.Deed.after?, ∃ m', Shows t m' ∧ P m') ∧
      ∃ m', Shows (p.run access log s).2 m' ∧ P m' := by
  induction hsafe generalizing s with
  | @done a m holds => exact ⟨by simp [Program.trail], m, hshows, hinv⟩
  | @fail f m => exact ⟨by simp [Program.trail], m, hshows, hinv⟩
  | log hrest ih => exact ih (hmirrors.log _ hshows) hinv
  | @access a next m hproper hblind hkept hrest hidle ih ih' =>
    have hfollows := hmirrors.access a hshows (htidy m hinv) hproper
    simp only [Program.trail, Program.run, Run.bind, List.filterMap_cons, Program.Deed.after?]
    revert hfollows
    rcases access a s with ⟨f | r, t⟩ <;> intro hfollows
    · obtain ⟨-, hsame⟩ := hfollows
      exact ⟨by simpa using ⟨m, hsame, hinv⟩, m, hsame, hinv⟩
    · obtain ⟨hsame, hshown | ⟨hno, hshown⟩⟩ := hfollows
      · simp only [hblind r hsame]
        obtain ⟨hbetween, hfinal⟩ := ih hshown hkept
        exact ⟨List.forall_mem_cons.2 ⟨⟨_, hshown, hkept⟩, hbetween⟩, hfinal⟩
      · simp only [hblind r hsame]
        obtain ⟨hbetween, hfinal⟩ := ih' hno hshown hinv
        exact ⟨List.forall_mem_cons.2 ⟨⟨_, hshown, hinv⟩, hbetween⟩, hfinal⟩

/-- A safe program comes to what it comes to on the contents, by the same accesses, if the store
takes these, every flow can be read, and what is written can be told. -/
theorem run_eq (hmirrors : Mirrors access log now Takes Shows) (htidy : ∀ m, P m → m.Tidy)
    (hreads : ∀ m, P m → ∀ key, m.Reads now key) (p : Program α) {s : σ} {m : Memory}
    (hshows : Shows s m) (hinv : P m) (hsafe : p.Safe now P Q m) (hdiscerns : p.Discerns now m)
    (htakes : ∀ a ∈ p.accesses (Memory.perform now) (fun _ m => m) m, Takes a) :
    (p.run access log s).1 = (p.run (Memory.perform now) (fun _ m => m) m).1 ∧
      Shows (p.run access log s).2 (p.run (Memory.perform now) (fun _ m => m) m).2 ∧
      P (p.run (Memory.perform now) (fun _ m => m) m).2 ∧
      p.accesses access log s = p.accesses (Memory.perform now) (fun _ m => m) m := by
  induction hsafe generalizing s with
  | done holds => exact ⟨rfl, hshows, hinv, rfl⟩
  | fail => exact ⟨rfl, hshows, hinv, rfl⟩
  | log hrest ih => exact ih (hmirrors.log _ hshows) hinv hdiscerns.of_log htakes
  | @access a next m hproper hblind hkept hrest hidle ih ih' =>
    obtain ⟨htold, hgoesOn⟩ := hdiscerns.of_access
    have hfollows := hmirrors.access a hshows (htidy m hinv) hproper
    simp only [Program.accesses, Program.trail, Memory.perform, List.filterMap_cons,
      Program.Deed.access?, List.forall_mem_cons] at htakes
    have hgranted : m.Grants now Takes a := by
      cases a with
      | loadFlow tenant name => exact ⟨hreads m hinv _, .inr htakes.1⟩
      | fetchConversation tenant key => exact .inr htakes.1
      | _ => exact htakes.1
    simp only [Program.accesses, Program.trail, Program.run, Run.bind, Memory.perform,
      List.filterMap_cons, Program.Deed.access?]
    revert hfollows
    rcases access a s with ⟨f | r, t⟩ <;> intro hfollows
    · exact absurd hgranted hfollows.1
    · have hshown := hfollows.shows htold
      simp only [hblind r hfollows.1]
      obtain ⟨hresult, hfinal, hstill, hasked⟩ :=
        ih hshown hkept (hgoesOn _ (a.same_refl _)) htakes.2
      exact ⟨hresult, hfinal, hstill, congrArg (a :: ·) hasked⟩

/-- A program fails at its next access, which was not granted then, or it goes on with what the
contents answer, except that a flow may lie elsewhere. -/
theorem run_access (hmirrors : Mirrors access log now Takes Shows) {s : σ} {m : Memory}
    (hshows : Shows s m) (htidy : m.Tidy) (a : Access) (hproper : a.Proper)
    (hdiscerns : m.Discerns a) {next : a.Answer → Program α} :
    (∃ f t, (Program.access a next).run access log s = (.error f, t) ∧ ¬ m.Grants now Takes a ∧
        Shows t m) ∨
      ∃ answer t, access a s = (.ok answer, t) ∧
        (Program.access a next).run access log s = (next answer).run access log t ∧
        a.Same answer (m.answer now a) ∧ Shows t (m.after a) := by
  have hfollows := hmirrors.access a hshows htidy hproper
  rw [Program.run]
  rcases hran : access a s with ⟨f | answer, t⟩ <;> rw [hran] at hfollows
  · exact .inl ⟨f, t, by rw [Run.bind, hran], hfollows⟩
  · exact .inr ⟨answer, t, rfl, by rw [Run.bind, hran], hfollows.1, hfollows.shows hdiscerns⟩

/-- Where a flow lies is told in any case. -/
theorem run_locateFlow (hmirrors : Mirrors access log now Takes Shows) {s : σ} {m : Memory}
    (hshows : Shows s m) (htidy : m.Tidy) {tenant name : Value}
    (htaken : Takes (.locateFlow tenant name)) (next : String → Program α) :
    ∃ location t, (Program.access (.locateFlow tenant name) next).run access log s =
      (next location).run access log t ∧ Shows t m := by
  rcases hmirrors.run_access hshows htidy (.locateFlow tenant name) trivial trivial with
    ⟨f, t, hfailed, hrefused, -⟩ | ⟨location, t, -, hran, -, hshows'⟩
  · exact absurd htaken hrefused
  · exact ⟨location, t, hran, hshows'⟩

end Store.Mirrors

end Dialogue
