import Mathlib.Tactic.Common

namespace CloneVmm.Lib

theorem exceptBind_eq_ok {ε α β : Type} {x : Except ε α} {f : α → Except ε β} {b : β} :
    (x >>= f) = .ok b ↔ ∃ a, x = .ok a ∧ f a = .ok b := by
  cases x with
  | error e => simp [bind, Except.bind]
  | ok a => simp [bind, Except.bind]

abbrev Prog (ε σ α : Type) := ExceptT ε (StateM σ) α

namespace Prog

variable {ε σ α β : Type} {I : σ → Prop} {R S : α → Prop} {T : β → Prop} {s : σ}

def exec (m : Prog ε σ α) (s : σ) : Except ε α × σ := m.run.run s

theorem exec_bind (m : Prog ε σ α) (f : α → Prog ε σ β) (s : σ) :
    (m >>= f).exec s = match m.exec s with
      | (.ok a, t) => (f a).exec t
      | (.error e, t) => (.error e, t) := by
  change (ExceptT.bindCont f (m.exec s).1 : StateM σ _) (m.exec s).2 = _
  rcases m.exec s with ⟨a | a, t⟩
  · rfl
  · rfl

def Wp (m : Prog ε σ α) (Q : α → σ → Prop) (E : ε → σ → Prop) (s : σ) : Prop :=
  match m.exec s with
  | (.ok a, t) => Q a t
  | (.error e, t) => E e t

section Wp

variable {m : Prog ε σ α} {f : α → Prog ε σ β} {Q Q' : α → σ → Prop} {Q₂ : β → σ → Prop} {E E' : ε → σ → Prop}

theorem wp_pure {a : α} (h : Q a s) : (pure a : Prog ε σ α).Wp Q E s := h

theorem wp_throw {e : ε} (h : E e s) : (throw e : Prog ε σ α).Wp Q E s := h

theorem wp_get {Q : σ → σ → Prop} (h : Q s s) : (get : Prog ε σ σ).Wp Q E s := h

theorem wp_modifyGet {g : σ → α × σ} (h : Q (g s).1 (g s).2) : (modifyGet g : Prog ε σ α).Wp Q E s := h

theorem Wp.bind (h : m.Wp (fun a t => (f a).Wp Q₂ E t) E s) : (m >>= f).Wp Q₂ E s := by
  unfold Wp at h ⊢
  rw [exec_bind]
  cases hrun : m.exec s with
  | mk r t =>
    rw [hrun] at h
    cases r with
    | error e => exact h
    | ok a => exact h

theorem wp_get_bind {f : σ → Prog ε σ β} (h : (f s).Wp Q₂ E s) : (get >>= f : Prog ε σ β).Wp Q₂ E s := Wp.bind h

theorem wp_modifyGet_bind {g : σ → α × σ} (h : (f (g s).1).Wp Q₂ E (g s).2) :
    (modifyGet g >>= f : Prog ε σ β).Wp Q₂ E s := Wp.bind h

theorem Wp.mono (h : m.Wp Q E s) (hQ : ∀ a t, Q a t → Q' a t) (hE : ∀ e t, E e t → E' e t) : m.Wp Q' E' s := by
  unfold Wp at h ⊢
  cases hrun : m.exec s with
  | mk r t =>
    rw [hrun] at h
    cases r with
    | error e => exact hE e t h
    | ok a => exact hQ a t h

theorem Wp.seq (h : m.Wp Q E s) (hf : ∀ a t, Q a t → (f a).Wp Q₂ E t) : (m >>= f).Wp Q₂ E s :=
  (h.mono hf fun _ _ he => he).bind

theorem Wp.and (h : m.Wp Q E s) (h' : m.Wp Q' E' s) :
    m.Wp (fun a t => Q a t ∧ Q' a t) (fun e t => E e t ∧ E' e t) s := by
  unfold Wp at h h' ⊢
  cases hrun : m.exec s with
  | mk r t =>
    rw [hrun] at h h'
    cases r with
    | error e => exact ⟨h, h'⟩
    | ok a => exact ⟨h, h'⟩

theorem Wp.and_of_ok (h : m.Wp Q (fun _ _ => False) s) (h' : m.Wp Q' E' s) : m.Wp (fun a t => Q a t ∧ Q' a t) E s :=
  (h.and h').mono (fun _ _ hboth => hboth) fun _ _ hfalse => hfalse.1.elim

theorem Wp.fails_bind (h : m.Wp (fun _ _ => False) E s) : (m >>= f).Wp Q₂ E s :=
  h.seq fun _ _ hfalse => hfalse.elim

theorem wp_of_exec {a : α} {t : σ} (hrun : m.exec s = (.ok a, t)) (hQ : Q a t) : m.Wp Q E s := by
  unfold Wp
  rwa [hrun]

theorem wp_of_exec_error {e : ε} {t : σ} (hrun : m.exec s = (.error e, t)) (hE : E e t) : m.Wp Q E s := by
  unfold Wp
  rwa [hrun]

theorem Wp.ok {a : α} {t : σ} (h : m.Wp Q E s) (hrun : m.exec s = (.ok a, t)) : Q a t := by
  unfold Wp at h
  rwa [hrun] at h

theorem Wp.error {e : ε} {t : σ} (h : m.Wp Q E s) (hrun : m.exec s = (.error e, t)) : E e t := by
  unfold Wp at h
  rwa [hrun] at h

end Wp

def Ends (I : σ → Prop) (R : α → Prop) (m : Prog ε σ α) (s : σ) : Prop :=
  m.Wp (fun a t => I t ∧ R a) (fun _ t => I t) s

def Keeps (I : σ → Prop) (R : α → Prop) (m : Prog ε σ α) : Prop := ∀ s, I s → m.Ends I R s

theorem Ends.state {m : Prog ε σ α} (h : m.Ends I R s) : I (m.exec s).2 := by
  unfold Ends Wp at h
  cases hrun : m.exec s with
  | mk r t =>
    rw [hrun] at h
    cases r with
    | error e => exact h
    | ok a => exact h.1

theorem ends_pure {a : α} (hs : I s) (h : R a) : (pure a : Prog ε σ α).Ends I R s := ⟨hs, h⟩

theorem ends_throw {e : ε} (hs : I s) : (throw e : Prog ε σ α).Ends I R s := hs

theorem Ends.bind {m : Prog ε σ α} {f : α → Prog ε σ β} (hm : m.Ends I R s)
    (hf : ∀ a, R a → (f a).Keeps I T) : (m >>= f).Ends I T s :=
  Wp.seq hm fun a t ha => hf a ha.2 t ha.1

theorem ends_bind_of_exec {m : Prog ε σ α} {f : α → Prog ε σ β} {a : α} {t : σ}
    (hm : m.exec s = (.ok a, t)) (hf : (f a).Ends I T t) : (m >>= f).Ends I T s := by
  apply Wp.bind
  unfold Wp
  rw [hm]
  exact hf

theorem Ends.mono {m : Prog ε σ α} (hm : m.Ends I R s) (h : ∀ a, R a → S a) : m.Ends I S s :=
  Wp.mono hm (fun a _ ha => ⟨ha.1, h a ha.2⟩) fun _ _ he => he

theorem Ends.imp {J : σ → Prop} {m : Prog ε σ α} (hm : m.Ends I R s) (h : ∀ t, I t → J t) : m.Ends J R s :=
  Wp.mono hm (fun _ t ha => ⟨h t ha.1, ha.2⟩) fun _ t => h t

theorem keeps_true (m : Prog ε σ α) : m.Keeps (fun _ => True) fun _ => True := by
  intro s _
  unfold Ends Wp
  cases m.exec s with
  | mk r t =>
    cases r with
    | error e => trivial
    | ok a => exact ⟨trivial, trivial⟩

theorem keeps_pure {a : α} (h : R a) : (pure a : Prog ε σ α).Keeps I R := fun _ hs => ends_pure hs h

theorem keeps_throw {e : ε} : (throw e : Prog ε σ α).Keeps I R := fun _ hs => ends_throw hs

theorem keeps_get : (get : Prog ε σ σ).Keeps I fun _ => True := fun _ hs => ⟨hs, trivial⟩

theorem keeps_modifyGet {g : σ → α × σ} (h : ∀ s, I s → I (g s).2) :
    (modifyGet g : Prog ε σ α).Keeps I fun _ => True := fun s hs => ⟨h s hs, trivial⟩

theorem Keeps.bind {m : Prog ε σ α} {f : α → Prog ε σ β} (hm : m.Keeps I R)
    (hf : ∀ a, R a → (f a).Keeps I T) : (m >>= f).Keeps I T := fun s hs => (hm s hs).bind hf

theorem Keeps.ite {c : Prop} [Decidable c] {m m' : Prog ε σ α} (h : m.Keeps I R)
    (h' : m'.Keeps I R) : (if c then m else m').Keeps I R := by
  split
  · exact h
  · exact h'

section Mirrors

variable {τ : Type} {view : σ → τ} {m : Prog ε σ α} {m' : Prog ε τ α}

def Mirrors (view : σ → τ) (I : σ → Prop) (m : Prog ε σ α) (m' : Prog ε τ α) : Prop :=
  ∀ s, I s → m'.exec (view s) = ((m.exec s).1, view (m.exec s).2) ∧ I (m.exec s).2

theorem mirrors_pure (a : α) : Mirrors view I (pure a : Prog ε σ α) (pure a) := fun _ hs => ⟨rfl, hs⟩

theorem mirrors_throw (e : ε) : Mirrors view I (throw e : Prog ε σ α) (throw e) := fun _ hs => ⟨rfl, hs⟩

theorem Mirrors.bind {f : α → Prog ε σ β} {f' : α → Prog ε τ β} (hm : Mirrors view I m m')
    (hf : ∀ a, Mirrors view I (f a) (f' a)) : Mirrors view I (m >>= f) (m' >>= f') := by
  intro s hs
  obtain ⟨hrun, hI⟩ := hm s hs
  rw [exec_bind, exec_bind, hrun]
  cases hres : m.exec s with
  | mk r t =>
    rw [hres] at hI
    cases r with
    | error e => exact ⟨rfl, hI⟩
    | ok a => exact hf a t hI

theorem mirrors_get_bind {f : σ → Prog ε σ β} {f' : τ → Prog ε τ β} (hf : ∀ s, I s → Mirrors view I (f s) (f' (view s))) :
    Mirrors view I (get >>= f) (get >>= f') := fun s hs => hf s hs s hs

theorem mirrors_modifyGet {g : σ → α × σ} {g' : τ → α × τ} (h : ∀ s, I s → g' (view s) = ((g s).1, view (g s).2))
    (hI : ∀ s, I s → I (g s).2) : Mirrors view I (modifyGet g : Prog ε σ α) (modifyGet g') := by
  intro s hs
  refine ⟨?_, hI s hs⟩
  change (Except.ok (g' (view s)).1, (g' (view s)).2) = (Except.ok (g s).1, view (g s).2)
  rw [h s hs]

theorem Mirrors.ite {c : Prop} [Decidable c] {n : Prog ε σ α} {n' : Prog ε τ α} (h : Mirrors view I m m')
    (h' : Mirrors view I n n') : Mirrors view I (if c then m else n) (if c then m' else n') := by
  split
  · exact h
  · exact h'

end Mirrors

end Prog

end CloneVmm.Lib
