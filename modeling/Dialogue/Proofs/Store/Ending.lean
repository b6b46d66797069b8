import Dialogue.Proofs.Store.Mirror

/-!
# How a program ends

`Program.Safe` keeps one invariant all the way.  That is too little where what is stored has to be
told together with what is answered: then the contents after a program depend on its result, and
those after a program that fails do not.  `Program.Ends` has a property of its own for each.

A program that ends on contents ends alike over a store that mirrors them, where it may fail before
any of its accesses (`Store.Mirrors.ends`).  It does not fail if all its accesses are granted
(`Program.Comes`, `Store.Mirrors.comes`), for which what it writes is to be told from what it is
written over (`Program.Discerns`).

A program that reads and then writes may fail as long as it only reads.  It *settles* if nothing can
stop it once the first write was answered (`Program.Settles`): whatever it does from there on is
granted.  For that it may use what the answer to the first write tells about the store.  Over a
store that mirrors contents such a program comes to a result, or it fails and leaves the contents as
they were (`Store.Mirrors.settles`).
-/

namespace Dialogue

open Store

namespace Program

variable {α β : Type} {now : String} {E E' : Memory → Prop} {Q Q' : Memory → α → Prop} {m : Memory}

/-- On contents, a program makes proper accesses and comes to a result with a property of both.
Before each access, and where it gives up, the contents have another property.  What counts as the
same as what it is written over may be left out. -/
inductive Ends (now : String) (E : Memory → Prop) (Q : Memory → α → Prop) :
    Program α → Memory → Prop where
  | done {a : α} {m : Memory} (holds : Q m a) : Ends now E Q (.done a) m
  | fail {f : Failure} {m : Memory} (kept : E m) : Ends now E Q (.fail f) m
  | log {e : Event} {next : Program α} {m : Memory} (rest : Ends now E Q next m) :
      Ends now E Q (.log e next) m
  | access {a : Access} {next : a.Answer → Program α} {m : Memory} (kept : E m) (proper : a.Proper)
      (blind : ∀ r, a.Same r (m.answer now a) → next r = next (m.answer now a))
      (rest : Ends now E Q (next (m.answer now a)) (m.after a))
      (idle : ¬ m.Discerns a → Ends now E Q (next (m.answer now a)) m) :
      Ends now E Q (.access a next) m

/-- A program that ends may begin with an access whose writes can be told. -/
theorem Ends.telling {a : Access} {next : a.Answer → Program α} (hkept : E m) (hproper : a.Proper)
    (hblind : ∀ r, a.Same r (m.answer now a) → next r = next (m.answer now a))
    (hrest : (next (m.answer now a)).Ends now E Q (m.after a)) (hdiscerns : m.Discerns a) :
    (Program.access a next).Ends now E Q m :=
  .access hkept hproper hblind hrest fun hidle => absurd hdiscerns hidle

theorem Safe.ends {P : Memory → Prop} {p : Program α} (hsafe : p.Safe now P Q m) (hinv : P m) :
    p.Ends now P (fun m a => P m ∧ Q m a) m := by
  induction hsafe with
  | done holds => exact .done ⟨hinv, holds⟩
  | fail => exact .fail hinv
  | log hrest ih => exact .log (ih hinv)
  | access hproper hblind hkept hrest hidle ih ih' =>
    exact .access hinv hproper hblind (ih hkept) fun hno => ih' hno hinv

theorem Ends.mono {p : Program α} (hends : p.Ends now E Q m) (hfails : ∀ m, E m → E' m)
    (hcomes : ∀ m a, Q m a → Q' m a) : p.Ends now E' Q' m := by
  induction hends with
  | done holds => exact .done (hcomes _ _ holds)
  | fail hkept => exact .fail (hfails _ hkept)
  | log hrest ih => exact .log ih
  | access hkept hproper hblind hrest hidle ih ih' =>
    exact .access (hfails _ hkept) hproper hblind ih ih'

theorem Ends.bind {R : Memory → β → Prop} {p : Program α} {k : α → Program β}
    (hends : p.Ends now E Q m) (hgoesOn : ∀ a m', Q m' a → (k a).Ends now E R m') :
    (p.bind k).Ends now E R m := by
  induction hends with
  | done holds => exact hgoesOn _ _ holds
  | fail hkept => exact .fail hkept
  | log hrest ih => exact .log ih
  | access hkept hproper hblind hrest hidle ih ih' =>
    exact .access hkept hproper (fun r hsame => congrArg (Program.bind · k) (hblind r hsame)) ih ih'

/-- On contents, a program makes proper accesses, all of them granted, and comes to a result with a
property of both. -/
inductive Comes (now : String) (Takes : Access → Prop) (Q : Memory → α → Prop) :
    Program α → Memory → Prop where
  | done {a : α} {m : Memory} (holds : Q m a) : Comes now Takes Q (.done a) m
  | log {e : Event} {next : Program α} {m : Memory} (rest : Comes now Takes Q next m) :
      Comes now Takes Q (.log e next) m
  | access {a : Access} {next : a.Answer → Program α} {m : Memory} (tidy : m.Tidy)
      (proper : a.Proper) (granted : m.Grants now Takes a)
      (blind : ∀ r, a.Same r (m.answer now a) → next r = next (m.answer now a))
      (rest : Comes now Takes Q (next (m.answer now a)) (m.after a)) :
      Comes now Takes Q (.access a next) m

variable {Takes : Access → Prop}

theorem Comes.bind {R : Memory → β → Prop} {p : Program α} {k : α → Program β}
    (hcomes : p.Comes now Takes Q m) (hgoesOn : ∀ a m', Q m' a → (k a).Comes now Takes R m') :
    (p.bind k).Comes now Takes R m := by
  induction hcomes with
  | done holds => exact hgoesOn _ _ holds
  | log hrest ih => exact .log ih
  | access htidy hproper hgranted hblind hrest ih =>
    exact .access htidy hproper hgranted (fun r hsame =>
      congrArg (Program.bind · k) (hblind r hsame)) ih

end Program

/-- A program ends over a store as it ends on the contents that the store shows, or it fails. -/
theorem Store.Mirrors.ends {σ α : Type} {access : (a : Access) → Run σ a.Answer}
    {log : Event → σ → σ} {now : String} {Takes : Access → Prop} {Shows : σ → Memory → Prop}
    {E : Memory → Prop} {Q : Memory → α → Prop} (hmirrors : Mirrors access log now Takes Shows)
    (htidy : ∀ m, E m → m.Tidy) {p : Program α} {s : σ} {m : Memory} (hshows : Shows s m)
    (hends : p.Ends now E Q m) :
    (∃ a m', (p.run access log s).1 = .ok a ∧ Shows (p.run access log s).2 m' ∧ Q m' a) ∨
      ∃ f m', (p.run access log s).1 = .error f ∧ Shows (p.run access log s).2 m' ∧ E m' := by
  induction hends generalizing s with
  | @done a m holds => exact .inl ⟨a, m, rfl, hshows, holds⟩
  | @fail f m hkept => exact .inr ⟨f, m, rfl, hshows, hkept⟩
  | log hrest ih => exact ih (hmirrors.log _ hshows)
  | @access a next m hkept hproper hblind hrest hidle ih ih' =>
    have hfollows := hmirrors.access a hshows (htidy m hkept) hproper
    simp only [Program.run, Run.bind]
    revert hfollows
    rcases access a s with ⟨f | r, t⟩ <;> intro hfollows
    · exact .inr ⟨f, m, rfl, hfollows.2, hkept⟩
    · obtain ⟨hsame, hshown | ⟨hno, hshown⟩⟩ := hfollows
      · simp only [hblind r hsame]
        exact ih hshown
      · simp only [hblind r hsame]
        exact ih' hno hshown

/-- A program whose accesses are granted comes over a store to what it comes to on the contents that
the store shows. -/
theorem Store.Mirrors.comes {σ α : Type} {access : (a : Access) → Run σ a.Answer}
    {log : Event → σ → σ} {now : String} {Takes : Access → Prop} {Shows : σ → Memory → Prop}
    {Q : Memory → α → Prop} (hmirrors : Mirrors access log now Takes Shows) {p : Program α} {s : σ}
    {m : Memory} (hshows : Shows s m) (hcomes : p.Comes now Takes Q m)
    (hdiscerns : p.Discerns now m) :
    ∃ a m', (p.run access log s).1 = .ok a ∧ Shows (p.run access log s).2 m' ∧ Q m' a := by
  induction hcomes generalizing s with
  | @done a m holds => exact ⟨a, m, rfl, hshows, holds⟩
  | log hrest ih => exact ih (hmirrors.log _ hshows) hdiscerns.of_log
  | @access a next m htidy hproper hgranted hblind hrest ih =>
    obtain ⟨htold, hgoesOn⟩ := hdiscerns.of_access
    have hfollows := hmirrors.access a hshows htidy hproper
    simp only [Program.run, Run.bind]
    revert hfollows
    rcases access a s with ⟨f | r, t⟩ <;> intro hfollows
    · exact absurd hgranted hfollows.1
    · have hshown := hfollows.shows htold
      simp only [hblind r hfollows.1]
      exact ih hshown (hgoesOn _ (a.same_refl _))

/-! ## Everything or nothing -/

namespace Program

variable {α β : Type} {now : String} {Takes Tells : Access → Prop} {Q : Memory → α → Prop}
  {m : Memory}

/-- On contents, a program reads, where it may give up, and comes to a result, or to a first write
after which it comes to a result.  `Tells` is what the answer to a write tells. -/
inductive Settles (now : String) (Takes Tells : Access → Prop) (Q : Memory → α → Prop) :
    Program α → Memory → Prop where
  | done {a : α} {m : Memory} (holds : Q m a) : Settles now Takes Tells Q (.done a) m
  | fail {f : Failure} {m : Memory} : Settles now Takes Tells Q (.fail f) m
  | log {e : Event} {next : Program α} {m : Memory} (rest : Settles now Takes Tells Q next m) :
      Settles now Takes Tells Q (.log e next) m
  | read {a : Access} {next : a.Answer → Program α} {m : Memory} (tidy : m.Tidy) (proper : a.Proper)
      (reads : m.after a = m)
      (rest : ∀ r, a.Same r (m.answer now a) → Settles now Takes Tells Q (next r) m) :
      Settles now Takes Tells Q (.access a next) m
  | write {a : Access} {next : a.Answer → Program α} {m : Memory} (tidy : m.Tidy)
      (proper : a.Proper)
      (rest : ∀ r, a.Same r (m.answer now a) → Tells a →
        Comes now Takes Q (next r) (m.after a)) :
      Settles now Takes Tells Q (.access a next) m

theorem Comes.settles {p : Program α} (hcomes : p.Comes now Takes Q m) :
    p.Settles now Takes Tells Q m := by
  induction hcomes with
  | done holds => exact .done holds
  | log hrest ih => exact .log ih
  | access htidy hproper hgranted hblind hrest ih =>
    refine .write htidy hproper fun r hsame _ => ?_
    rw [hblind r hsame]
    exact hrest

/-- A program that settles, and one that comes to a result after it. -/
theorem Settles.bind {R : Memory → β → Prop} {p : Program α} {k : α → Program β}
    (hsettles : p.Settles now Takes Tells Q m)
    (hgoesOn : ∀ a m', Q m' a → (k a).Comes now Takes R m') :
    (p.bind k).Settles now Takes Tells R m := by
  induction hsettles with
  | done holds => exact (hgoesOn _ _ holds).settles
  | fail => exact .fail
  | log hrest ih => exact .log ih
  | read htidy hproper hreads hrest ih => exact .read htidy hproper hreads ih
  | write htidy hproper hrest =>
    exact .write htidy hproper fun r hsame htold => (hrest r hsame htold).bind hgoesOn

end Program

/-- Over a store, a program that settles comes to a result, or it fails and changes nothing that is
shown. -/
theorem Store.Mirrors.settles {σ α : Type} {access : (a : Access) → Run σ a.Answer}
    {log : Event → σ → σ} {now : String} {Takes Tells : Access → Prop} {Shows : σ → Memory → Prop}
    {Q : Memory → α → Prop} (hmirrors : Mirrors access log now Takes Shows)
    (htells : ∀ {s t m} (a : Access) (r : a.Answer), Shows s m → m.Tidy → a.Proper →
      access a s = (.ok r, t) → Tells a)
    {p : Program α} {s : σ} {m : Memory} (hshows : Shows s m)
    (hsettles : p.Settles now Takes Tells Q m) (hdiscerns : p.Discerns now m) :
    (∃ a m', (p.run access log s).1 = .ok a ∧ Shows (p.run access log s).2 m' ∧ Q m' a) ∨
      ∃ f, (p.run access log s).1 = .error f ∧ Shows (p.run access log s).2 m := by
  induction hsettles generalizing s with
  | @done a m holds => exact .inl ⟨a, m, rfl, hshows, holds⟩
  | @fail f m => exact .inr ⟨f, rfl, hshows⟩
  | log hrest ih => exact ih (hmirrors.log _ hshows) hdiscerns.of_log
  | @read a next m htidy hproper hreads hrest ih =>
    obtain ⟨htold, hgoesOn⟩ := hdiscerns.of_access
    have hfollows := hmirrors.access a hshows htidy hproper
    simp only [Program.run, Run.bind]
    revert hfollows
    rcases access a s with ⟨f | r, t⟩ <;> intro hfollows
    · exact .inr ⟨f, rfl, hfollows.2⟩
    · exact ih r hfollows.1 (hreads ▸ hfollows.shows htold) (hreads ▸ hgoesOn r hfollows.1)
  | @write a next m htidy hproper hrest =>
    obtain ⟨htold, hgoesOn⟩ := hdiscerns.of_access
    have hfollows := hmirrors.access a hshows htidy hproper
    simp only [Program.run, Run.bind]
    rcases hran : access a s with ⟨f | r, t⟩
    · rw [hran] at hfollows
      exact .inr ⟨f, rfl, hfollows.2⟩
    · rw [hran] at hfollows
      exact .inl (hmirrors.comes (hfollows.shows htold)
        (hrest r hfollows.1 (htells a r hshows htidy hproper hran)) (hgoesOn r hfollows.1))

end Dialogue
