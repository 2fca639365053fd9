import Mathlib.Data.List.Basic
import Mathlib.Data.List.DropRight

/-! Facts about lists for the model: `find?` and `countP` on lists without duplicates, a bounded
history, pieces that tile a sequence from an offset, the records of a stream complete within a
prefix of it, and a list split into groups that follow the elements of another list. -/
namespace QuicGo.Lib

variable {α : Type*}

theorem List.find?_eq_of_imp {p q : α → Bool} {l : List α} (hqp : ∀ y ∈ l, q y → p y)
    (hfound : ∀ x, l.find? p = some x → q x) : l.find? q = l.find? p := by
  induction l with
  | nil => rfl
  | cons y ys ih =>
    have ih' := ih (fun z hz => hqp z (List.mem_cons_of_mem y hz))
    cases hp : p y with
    | true =>
      have hq : q y = true := hfound y (by simp [hp])
      simp [hp, hq]
    | false =>
      have hq : q y = false := by
        cases hq : q y
        · rfl
        · simpa [hp] using hqp y List.mem_cons_self hq
      rw [List.find?_cons_of_neg (by simp [hq]), List.find?_cons_of_neg (by simp [hp])]
      exact ih' fun x hx => hfound x (by rwa [List.find?_cons_of_neg (by simp [hp])])

theorem List.find?_erase_of_ne [DecidableEq α] {p : α → Bool} {l : List α} {a : α}
    (hne : l.find? p ≠ some a) : (l.erase a).find? p = l.find? p := by
  induction l with
  | nil => rfl
  | cons y ys ih =>
    by_cases hya : y = a
    · subst hya
      have hpy : p y = false := by
        cases hp : p y
        · rfl
        · exact absurd (by simp [hp]) hne
      simp [hpy]
    · rw [List.erase_cons_tail (by simpa using hya)]
      cases hp : p y with
      | true => simp [hp]
      | false =>
        simp only [List.find?_cons, hp] at hne ⊢
        exact ih hne

theorem List.Nodup.exists_split {l : List α} {a : α} (hl : l.Nodup) (ha : a ∈ l) :
    ∃ s t, l = s ++ a :: t ∧ a ∉ s ∧ a ∉ t := by
  obtain ⟨s, t, rfl⟩ := List.append_of_mem ha
  have hnd : (a :: t).Nodup ∧ a ∉ s := by
    refine ⟨(List.nodup_append.mp hl).2.1, fun has => ?_⟩
    exact (List.nodup_append.mp hl).2.2 a has a List.mem_cons_self rfl
  exact ⟨s, t, rfl, hnd.2, (List.nodup_cons.mp hnd.1).1⟩

theorem List.countP_erase_add [DecidableEq α] {p : α → Bool} {l : List α} {a : α}
    (hl : l.Nodup) (ha : a ∈ l) :
    (l.erase a).countP p + (if p a then 1 else 0) = l.countP p := by
  obtain ⟨s, t, rfl, has, -⟩ := List.Nodup.exists_split hl ha
  rw [List.erase_append_right _ has, List.erase_cons_head, List.countP_append,
    List.countP_append, List.countP_cons]
  omega

/-- Changing the predicate at one element that occurs once, to `false`, lowers a count by
that element's contribution. -/
theorem List.countP_update_add {p q : α → Bool} {l : List α} {a : α} (hl : l.Nodup)
    (ha : a ∈ l) (hq : ∀ x ∈ l, x ≠ a → q x = p x) (hqa : q a = false) :
    l.countP q + (if p a then 1 else 0) = l.countP p := by
  obtain ⟨s, t, rfl, has, hat⟩ := List.Nodup.exists_split hl ha
  have hs : s.countP q = s.countP p :=
    List.countP_congr fun x hx => by
      rw [hq x (by simp [hx]) (fun h => has (h ▸ hx))]
  have ht : t.countP q = t.countP p :=
    List.countP_congr fun x hx => by
      rw [hq x (by simp [hx]) (fun h => hat (h ▸ hx))]
  simp only [List.countP_append, List.countP_cons, hs, ht, hqa, Bool.false_eq_true, if_false]
  omega

/-- On a list ordered by `R`, a predicate that only fails upwards along `R` holds on a prefix,
so its longest prefix is its filter. -/
theorem List.takeWhile_eq_filter_of_pairwise {R : α → α → Prop} {c : α → Bool} {l : List α}
    (hc : ∀ a b, R a b → c b = true → c a = true) (hl : l.Pairwise R) :
    l.takeWhile c = l.filter c := by
  induction l with
  | nil => rfl
  | cons a l ih =>
    obtain ⟨ha, hl⟩ := List.pairwise_cons.mp hl
    cases hca : c a with
    | true => simp [hca, ih hl]
    | false =>
      have hnone : l.filter c = [] := List.filter_eq_nil_iff.mpr fun b hb hcb => by
        simpa [hca] using hc a b (ha b hb) hcb
      simp [hca, hnone]

theorem List.Pairwise.eq_or_rel_of_mem {R : α → α → Prop} {l : List α} (hl : l.Pairwise R)
    {a b : α} (ha : a ∈ l) (hb : b ∈ l) : a = b ∨ R a b ∨ R b a := by
  induction l with
  | nil => simp at ha
  | cons x xs ih =>
    obtain ⟨hx, hxs⟩ := List.pairwise_cons.mp hl
    rcases List.mem_cons.mp ha with rfl | ha' <;> rcases List.mem_cons.mp hb with rfl | hb'
    · exact .inl rfl
    · exact .inr (.inl (hx b hb'))
    · exact .inr (.inr (hx a ha'))
    · exact ih hxs ha' hb'

/-- A count grows strictly under a weaker predicate that holds at an element where the
stronger one fails. -/
theorem List.countP_lt_countP_of_mem {p q : α → Bool} {l : List α} (h : ∀ x ∈ l, p x → q x)
    {a : α} (ha : a ∈ l) (hqa : q a = true) (hpa : p a = false) : l.countP p < l.countP q := by
  induction l with
  | nil => simp at ha
  | cons x xs ih =>
    have hmono : xs.countP p ≤ xs.countP q :=
      List.countP_mono_left fun y hy => h y (List.mem_cons_of_mem x hy)
    have hx : (if p x then 1 else 0) ≤ (if q x then 1 else 0) := by
      cases hp : p x
      · simp
      · simp [h x List.mem_cons_self hp]
    rw [List.countP_cons, List.countP_cons]
    rcases List.mem_cons.mp ha with rfl | ha
    · simp only [hqa, hpa, if_true, Bool.false_eq_true, if_false]
      omega
    · have := ih (fun y hy => h y (List.mem_cons_of_mem x hy)) ha
      omega

theorem List.foldl_append_filter {σ : Type*} (π : σ → List α) (f : σ → α → σ) (P : α → Bool)
    (hf : ∀ s x, π (f s x) = if P x then π s ++ [x] else π s) :
    ∀ (l : List α) (s : σ), π (l.foldl f s) = π s ++ l.filter P := by
  intro l
  induction l with
  | nil => intro s; simp
  | cons x xs ih =>
    intro s
    rw [List.foldl_cons, ih, hf, List.filter_cons]
    cases P x <;> simp

/-- A history that keeps the last `k + 1` elements and drops its oldest one when full, before an
append, keeps the last `k`. -/
theorem List.rtake_succ_trim (l : List α) (k : Nat) :
    (if (l.rtake (k + 1)).length + 1 > k + 1 then (l.rtake (k + 1)).tail else l.rtake (k + 1)) =
      l.rtake k := by
  simp only [List.rtake, List.length_drop]
  split
  · rw [List.tail_drop]
    congr 1
    omega
  · congr 1
    omega

theorem List.ite_nil_sublist (c : Prop) [Decidable c] (l : List α) :
    List.Sublist (if c then l else []) l := by
  split
  · exact List.Sublist.refl l
  · exact List.nil_sublist l

theorem List.ite_length_pos_self (l : List α) : (if 0 < l.length then l else []) = l := by
  cases l <;> simp

section Contiguous

variable {β : Type*} {offset : α → Nat} {data : α → List β}

variable (offset data) in
/-- The pieces tile the sequence from `o` on: each starts where the ones before it end. -/
def Contiguous : Nat → List α → Prop
  | _, [] => True
  | o, c :: cs => offset c = o ∧ Contiguous (o + (data c).length) cs

theorem contiguous_append {o : Nat} {l₁ l₂ : List α} :
    Contiguous offset data o (l₁ ++ l₂) ↔
      Contiguous offset data o l₁ ∧ Contiguous offset data (o + (l₁.flatMap data).length) l₂ := by
  induction l₁ generalizing o with
  | nil => simp [Contiguous]
  | cons c cs ih => simp [Contiguous, ih, Nat.add_assoc, and_assoc]

theorem contiguous_map {γ : Type*} (g : γ → α) {o : Nat} {l : List γ} :
    Contiguous offset data o (l.map g) ↔ Contiguous (offset ∘ g) (data ∘ g) o l := by
  induction l generalizing o with
  | nil => simp [Contiguous]
  | cons c cs ih => simp [Contiguous, ih]

theorem Contiguous.snoc {o : Nat} {l : List α} {c : α} (h : Contiguous offset data o l)
    (hc : offset c = o + (l.flatMap data).length) : Contiguous offset data o (l ++ [c]) :=
  contiguous_append.mpr ⟨h, hc, trivial⟩

theorem Contiguous.end_last {o : Nat} {l : List α} {c : α} (h : Contiguous offset data o (l ++ [c])) :
    offset c + (data c).length = o + ((l ++ [c]).flatMap data).length := by
  obtain ⟨-, hc, -⟩ := contiguous_append.mp h
  rw [hc, List.flatMap_append, List.length_append, List.flatMap_singleton]
  omega

theorem Contiguous.slice {o : Nat} {l : List α} (h : Contiguous offset data o l) {c : α}
    (hc : c ∈ l) :
    o ≤ offset c ∧ offset c - o + (data c).length ≤ (l.flatMap data).length ∧
      ((l.flatMap data).drop (offset c - o)).take (data c).length = data c := by
  induction l generalizing o with
  | nil => exact absurd hc List.not_mem_nil
  | cons c' cs ih =>
    obtain ⟨hc', hcs⟩ := h
    rw [List.flatMap_cons, List.length_append]
    rcases List.mem_cons.mp hc with rfl | hc
    · refine ⟨hc'.ge, by omega, ?_⟩
      rw [hc', Nat.sub_self, List.drop_zero, List.take_left' rfl]
    · obtain ⟨hle, hend, hslice⟩ := ih hcs hc
      have hdrop : offset c - o = (data c').length + (offset c - (o + (data c').length)) := by
        omega
      refine ⟨by omega, by omega, ?_⟩
      rw [hdrop, ← List.drop_drop, List.drop_left]
      exact hslice

theorem Contiguous.exists_mem_of_lt {o : Nat} {l : List α} (h : Contiguous offset data o l)
    {p : Nat} (hp : o ≤ p) (hp' : p < o + (l.flatMap data).length) :
    ∃ c ∈ l, offset c ≤ p ∧ p < offset c + (data c).length := by
  induction l generalizing o with
  | nil =>
    rw [List.flatMap_nil, List.length_nil, Nat.add_zero] at hp'
    omega
  | cons c cs ih =>
    obtain ⟨hc, hcs⟩ := h
    rw [List.flatMap_cons, List.length_append] at hp'
    by_cases hin : p < o + (data c).length
    · exact ⟨c, List.mem_cons_self, by omega, by omega⟩
    · obtain ⟨c', hc', hle, hlt⟩ := ih hcs (by omega) (by omega)
      exact ⟨c', List.mem_cons_of_mem c hc', hle, hlt⟩

end Contiguous

section Records

variable {β : Type*}

/-- The number of records at the front of `ms` that lie complete within its first `P` items. -/
def completeWithin : List (List β) → Nat → Nat
  | [], _ => 0
  | m :: ms, P => if m.length ≤ P then completeWithin ms (P - m.length) + 1 else 0

/-- What follows the records complete within the first `P` items, up to `P`. -/
def pending (ms : List (List β)) (P : Nat) : List β :=
  (ms.drop (completeWithin ms P)).flatten.take (P - (ms.take (completeWithin ms P)).flatten.length)

theorem completeWithin_zero {ms : List (List β)} (hms : ∀ m ∈ ms, m ≠ []) :
    completeWithin ms 0 = 0 := by
  cases ms with
  | nil => rfl
  | cons m ms =>
    have hm : ¬ m.length ≤ 0 := by simpa using hms m List.mem_cons_self
    simp [completeWithin, hm]

theorem flatten_take_completeWithin_le : ∀ (ms : List (List β)) (P : Nat),
    (ms.take (completeWithin ms P)).flatten.length ≤ P
  | [], _ => by simp [completeWithin]
  | m :: ms, P => by
    by_cases hP : m.length ≤ P
    · have ih := flatten_take_completeWithin_le ms (P - m.length)
      simp only [completeWithin, if_pos hP, List.take_succ_cons, List.flatten_cons,
        List.length_append]
      omega
    · simp [completeWithin, if_neg hP]

/-- The records complete within a longer prefix are those within the shorter one followed by
those of the rest within what the longer prefix adds. -/
theorem completeWithin_split : ∀ (ms : List (List β)) {P Q : Nat}, P ≤ Q →
    completeWithin ms Q = completeWithin ms P +
      completeWithin (ms.drop (completeWithin ms P))
        (Q - (ms.take (completeWithin ms P)).flatten.length)
  | [], _, _, _ => by simp [completeWithin]
  | m :: ms, P, Q, hPQ => by
    by_cases hP : m.length ≤ P
    · have hQ : m.length ≤ Q := le_trans hP hPQ
      have ih := completeWithin_split ms (Nat.sub_le_sub_right hPQ m.length)
      simp only [completeWithin, if_pos hP, if_pos hQ, List.drop_succ_cons, List.take_succ_cons,
        List.flatten_cons, List.length_append, ih, Nat.sub_sub]
      omega
    · simp [completeWithin, if_neg hP]

theorem drop_flatten_eq (ms : List (List β)) (c : Nat) :
    (ms.drop c).flatten = ms.flatten.drop (ms.take c).flatten.length := by
  have h := congrArg List.flatten (List.take_append_drop c ms)
  rw [List.flatten_append] at h
  rw [← h, List.drop_left]

theorem pending_append {ms : List (List β)} {P Q : Nat} (hPQ : P ≤ Q) :
    pending ms P ++ (ms.flatten.drop P).take (Q - P) =
      (ms.drop (completeWithin ms P)).flatten.take
        (Q - (ms.take (completeWithin ms P)).flatten.length) := by
  have he := flatten_take_completeWithin_le ms P
  have hQ : Q - (ms.take (completeWithin ms P)).flatten.length =
      (P - (ms.take (completeWithin ms P)).flatten.length) + (Q - P) := by omega
  rw [pending, drop_flatten_eq, hQ, List.take_add, List.drop_drop]
  congr 3
  omega

theorem completeWithin_flatten_length : ∀ ms : List (List β),
    completeWithin ms ms.flatten.length = ms.length
  | [] => rfl
  | m :: ms => by
    rw [completeWithin, if_pos (by simp), List.flatten_cons, List.length_append,
      Nat.add_sub_cancel_left, completeWithin_flatten_length ms, List.length_cons]

theorem pending_drain (ms : List (List β)) {P Q c e : Nat} (hPQ : P ≤ Q)
    (hc : completeWithin ms P = c) (he : (ms.take c).flatten.length = e) :
    pending (ms.drop c) (Q - e) = pending ms Q ∧
      ms.take c ++ (ms.drop c).take (completeWithin (ms.drop c) (Q - e)) =
        ms.take (completeWithin ms Q) := by
  have hsplit := completeWithin_split ms hPQ
  rw [hc, he] at hsplit
  refine ⟨?_, by rw [hsplit, List.take_add]⟩
  rw [pending, pending, hsplit, List.drop_drop, List.take_add, List.flatten_append,
    List.length_append, he, Nat.sub_sub, Nat.add_comm c]

end Records

section Groups

variable {β : Type*} (R : α → List β → Prop)

/-- `out` is `orig` with each element replaced, in order, by a group of elements related to it
by `R`. -/
def SplitsInto (orig : List α) (out : List β) : Prop :=
  ∃ groups, List.Forall₂ R orig groups ∧ out = groups.flatten

variable {R}

theorem SplitsInto.map {g : α → β} {l : List α} (h : ∀ a ∈ l, R a [g a]) :
    SplitsInto R l (l.map g) := by
  induction l with
  | nil => exact ⟨[], .nil, rfl⟩
  | cons a l ih =>
    obtain ⟨groups, hR, hout⟩ := ih fun a' ha' => h a' (List.mem_cons_of_mem a ha')
    exact ⟨[g a] :: groups, .cons (h a List.mem_cons_self) hR, by rw [List.map_cons, hout]; rfl⟩

/-- Where a piece of a group may itself be replaced by pieces of it, replacing one element of a
split list by pieces of it keeps the list split. -/
theorem SplitsInto.bind {S : β → List β → Prop}
    (hRS : ∀ {o x a b qs}, R o (a ++ x :: b) → S x qs → R o (a ++ qs ++ b))
    {orig : List α} {a b qs : List β} {x : β} (h : SplitsInto R orig (a ++ x :: b))
    (hx : S x qs) : SplitsInto R orig (a ++ qs ++ b) := by
  obtain ⟨groups, hR, hout⟩ := h
  induction hR generalizing a with
  | nil => simp at hout
  | @cons o group orig groups ho hrest ih =>
    rw [List.flatten_cons] at hout
    rcases List.append_eq_append_iff.mp hout with ⟨c, rfl, hc⟩ | ⟨c, rfl, hflat⟩
    · cases c with
      | nil =>
        obtain ⟨groups', hR', hout'⟩ := ih (a := []) (by simpa using hc)
        exact ⟨a :: groups', .cons (by simpa using ho) hR', by rw [List.flatten_cons, ← hout']; simp⟩
      | cons x' c =>
        obtain ⟨rfl, rfl⟩ := List.cons.inj hc
        exact ⟨(a ++ qs ++ c) :: groups, .cons (hRS ho hx) hrest, by simp⟩
    · obtain ⟨groups', hR', hout'⟩ := ih hflat.symm
      exact ⟨group :: groups', .cons ho hR', by rw [List.flatten_cons, ← hout']; simp⟩

end Groups

end QuicGo.Lib
