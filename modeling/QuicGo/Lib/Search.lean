import Mathlib.Order.Basic

/-! Go's `sort.Search`: the binary search for the first index at which a predicate holds, over the
half-open interval `[0, n)`, returning `n` when there is none. The loop keeps the invariant of the
Go source: `f` fails below `i` and holds from `j` on (with `f n` taken as true). -/
namespace QuicGo.Lib

/-- The loop of `sort.Search` on `[i, j)`: `h` is the midpoint, and the half that still holds
the answer is kept. -/
def searchFrom (f : Nat → Bool) (i j : Nat) : Nat :=
  if i < j then
    let h := (i + j) / 2
    if !f h then searchFrom f (h + 1) j else searchFrom f i h
  else i
termination_by j - i

/-- `sort.Search n f` -/
def search (n : Nat) (f : Nat → Bool) : Nat :=
  searchFrom f 0 n

section
variable {f : Nat → Bool} {n : Nat}

/-- `r` is the first index of `[0, n)` at which `f` holds, or `n` when there is none. -/
structure IsFirst (f : Nat → Bool) (n r : Nat) : Prop where
  le : r ≤ n
  below : ∀ k < r, f k = false
  at_ : r < n → f r = true

/-- On `[0, n)`, a true value stays true to the right. -/
def MonotoneOn (f : Nat → Bool) (n : Nat) : Prop :=
  ∀ a b, a ≤ b → b < n → f a = true → f b = true

theorem IsFirst.unique {r r' : Nat} (h : IsFirst f n r) (h' : IsFirst f n r') : r = r' := by
  by_contra hne
  rcases Nat.lt_or_gt_of_ne hne with hlt | hlt
  · have := h'.below r hlt
    rw [h.at_ (by have := h'.le; omega)] at this
    cases this
  · have := h.below r' hlt
    rw [h'.at_ (by have := h.le; omega)] at this
    cases this

/-- The invariant of the loop: `f` fails below `i` and holds at `j` unless `j = n`, and
`i ≤ j ≤ n`; the loop returns the first index. -/
theorem searchFrom_isFirst (hmono : MonotoneOn f n) {i j : Nat} (hij : i ≤ j) (hjn : j ≤ n)
    (hlo : ∀ k < i, f k = false) (hhi : j < n → f j = true) :
    IsFirst f n (searchFrom f i j) := by
  induction i, j using searchFrom.induct f with
  | case1 i j hlt h hf ih =>
    rw [searchFrom, if_pos hlt]
    dsimp only
    rw [if_pos hf]
    have hfh : f h = false := by simpa using hf
    refine ih (by omega) hjn (fun k hk => ?_) hhi
    cases hfk : f k with
    | false => rfl
    | true =>
      rw [hmono k h (by omega) (by omega) hfk] at hfh
      cases hfh
  | case2 i j hlt h hf ih =>
    rw [searchFrom, if_pos hlt]
    dsimp only
    rw [if_neg hf]
    have hfh : f h = true := by simpa using hf
    exact ih (by omega) (by omega) hlo (fun _ => hfh)
  | case3 i j hge =>
    rw [searchFrom, if_neg hge]
    have hij' : i = j := by omega
    subst hij'
    exact ⟨hjn, hlo, hhi⟩

theorem search_isFirst (hmono : MonotoneOn f n) : IsFirst f n (search n f) :=
  searchFrom_isFirst hmono (Nat.zero_le n) (Nat.le_refl n)
    (fun _ hk => absurd hk (Nat.not_lt_zero _)) (fun h => absurd h (Nat.lt_irrefl n))

theorem search_eq_of_first (hmono : MonotoneOn f n) {r : Nat} (hr : IsFirst f n r) :
    search n f = r :=
  (search_isFirst hmono).unique hr

end

end QuicGo.Lib
