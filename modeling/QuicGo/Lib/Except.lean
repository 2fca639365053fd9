import Mathlib.Logic.Basic

/-! Facts about `Except` used to peel apart fallible computations: a computation that succeeds
succeeded at every bind, and its `toOption` is `some` exactly when it succeeded. `Except.Post E P x`
is the postcondition of a fallible computation: `x` returns a value with property `P`, or fails with
an error with property `E`. -/
namespace QuicGo.Lib

universe u

variable {ε : Type*} {α β : Type u}

@[simp] theorem Except.toOption_eq_some_iff {x : Except ε α} {a : α} :
    x.toOption = some a ↔ x = .ok a := by
  cases x <;> simp [Except.toOption]

theorem Except.pure_eq_ok (a : α) : (pure a : Except ε α) = .ok a :=
  rfl

@[simp] theorem Except.ok_bind (a : α) (f : α → Except ε β) : (Except.ok a >>= f) = f a :=
  rfl

@[simp] theorem Except.throw_bind (e : ε) (f : α → Except ε β) :
    ((throw e : Except ε α) >>= f) = throw e :=
  rfl

@[simp] theorem Except.map_throw (e : ε) (f : α → β) : (f <$> (throw e : Except ε α)) = throw e :=
  rfl

@[simp] theorem Except.throw_ne_ok (e : ε) (a : α) : (throw e : Except ε α) ≠ .ok a :=
  nofun

theorem Except.bind_eq_ok {x : Except ε α} {f : α → Except ε β} {b : β}
    (h : x >>= f = .ok b) : ∃ a, x = .ok a ∧ f a = .ok b := by
  cases x with
  | error e => cases h
  | ok a => exact ⟨a, rfl, h⟩

theorem Except.bind_eq_error {x : Except ε α} {f : α → Except ε β} {e : ε}
    (h : x >>= f = .error e) : x = .error e ∨ ∃ a, x = .ok a ∧ f a = .error e := by
  cases x with
  | error e' => exact .inl (congrArg Except.error (Except.error.inj h))
  | ok a => exact .inr ⟨a, rfl, h⟩

@[simp] theorem Except.map_eq_ok {x : Except ε α} {f : α → β} {b : β} :
    Except.map f x = .ok b ↔ ∃ a, x = .ok a ∧ f a = b := by
  cases x <;> simp [Except.map]

/-- `x` succeeds with a value satisfying `P`, or fails with an error satisfying `E`. -/
def Except.Post (E : ε → Prop) (P : α → Prop) : Except ε α → Prop
  | .ok a => P a
  | .error e => E e

namespace Except.Post

variable {E : ε → Prop} {P Q : α → Prop}

theorem of_ok {a : α} (h : P a) : Except.Post E P (.ok a) := h

theorem intro {x : Except ε α} {a : α} (hx : x = .ok a) (ha : P a) : Except.Post E P x := by
  subst hx
  exact ha

theorem throw_bind {f : α → Except ε β} {R : β → Prop} {e : ε} (he : E e) :
    Except.Post E R (throw e >>= f) :=
  he

theorem top (x : Except ε α) : Except.Post (fun _ => True) (fun _ => True) x := by
  cases x <;> trivial

theorem of_pure {a : α} (h : P a) : Except.Post E P (pure a) := h

theorem of_throw {e : ε} (h : E e) : Except.Post E P (throw e) := h

theorem bind {R : β → Prop} {x : Except ε α} {f : α → Except ε β} (hx : Except.Post E P x)
    (hf : ∀ a, P a → Except.Post E R (f a)) : Except.Post E R (x >>= f) := by
  cases x with
  | error e => exact hx
  | ok a => exact hf a hx

theorem mono {x : Except ε α} (hx : Except.Post E P x) (hPQ : ∀ a, P a → Q a) :
    Except.Post E Q x := by
  cases x with
  | error e => exact hx
  | ok a => exact hPQ a hx

theorem map {R : β → Prop} {x : Except ε α} {f : α → β} (hx : Except.Post E P x)
    (hf : ∀ a, P a → R (f a)) : Except.Post E R (f <$> x) := by
  cases x with
  | error e => exact hx
  | ok a => exact hf a hx

theorem ite {c : Prop} [Decidable c] {x y : Except ε α} (hx : c → Except.Post E P x)
    (hy : ¬c → Except.Post E P y) : Except.Post E P (if c then x else y) := by
  by_cases hc : c
  · rw [if_pos hc]; exact hx hc
  · rw [if_neg hc]; exact hy hc

theorem foldlM {γ : Type u} {f : α → γ → Except ε α} (I : List γ → α → Prop) :
    ∀ (l : List γ) (a : α), I l a →
      (∀ x rest b, I (x :: rest) b → Except.Post E (I rest) (f b x)) →
      Except.Post E (I []) (l.foldlM f a) := by
  intro l
  induction l with
  | nil => intro a ha _; exact ha
  | cons x rest ih =>
    intro a ha hf
    rw [List.foldlM_cons]
    exact bind (hf x rest a ha) fun b hb => ih b hb hf

theorem imp {E' : ε → Prop} {x : Except ε α} (hx : Except.Post E P x)
    (hE : ∀ e, E e → E' e) (hP : ∀ a, P a → Q a) : Except.Post E' Q x := by
  cases x with
  | error e => exact hE e hx
  | ok a => exact hP a hx

theorem exists_ok {x : Except ε α} (hx : Except.Post (fun _ => False) P x) :
    ∃ a, x = .ok a ∧ P a := by
  cases x with
  | error e => exact hx.elim
  | ok a => exact ⟨a, rfl, hx⟩

theorem of_eq_ok {x : Except ε α} (hx : Except.Post E P x) {a : α} (h : x = .ok a) : P a := by
  subst h; exact hx

theorem of_eq_error {x : Except ε α} (hx : Except.Post E P x) {e : ε} (h : x = .error e) : E e := by
  subst h; exact hx

end Except.Post

end QuicGo.Lib
