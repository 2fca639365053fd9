import QuicGo.Lib.Except

/-! Encoders and decoders over a stream of tokens, both in the monad `StateT (List τ) (Except ε)`. A
decoder's state is the part of the stream not yet read; it reads from the front and returns the
value with the rest. An encoder's state is the buffer written so far, to which it appends. -/
namespace QuicGo.Lib

variable {τ ε α β : Type}

/-- `d` reads exactly the tokens `l` from the front of any stream and returns `a`. -/
def Decodes (d : StateT (List τ) (Except ε) α) (l : List τ) (a : α) : Prop :=
  ∀ rest, d.run (l ++ rest) = .ok (a, rest)

namespace Decodes

theorem pure (a : α) : Decodes (Pure.pure a : StateT (List τ) (Except ε) α) [] a :=
  fun _ => rfl

theorem bind {d : StateT (List τ) (Except ε) α} {f : α → StateT (List τ) (Except ε) β}
    {l₁ l₂ : List τ} {a : α} {b : β} (hd : Decodes d l₁ a) (hf : Decodes (f a) l₂ b) :
    Decodes (d >>= f) (l₁ ++ l₂) b := by
  intro rest
  rw [StateT.run_bind, List.append_assoc, hd (l₂ ++ rest)]
  exact hf rest

theorem map {d : StateT (List τ) (Except ε) α} {l : List τ} {a : α} (hd : Decodes d l a)
    (g : α → β) : Decodes (g <$> d) l (g a) := by
  intro rest
  rw [StateT.run_map, hd rest]
  rfl

theorem bind_pure {d : StateT (List τ) (Except ε) α} {l : List τ} {a : α} (hd : Decodes d l a)
    (g : α → β) : Decodes (d >>= fun x => Pure.pure (g x)) l (g a) := by
  have hb : Decodes (d >>= fun x => Pure.pure (g x)) (l ++ []) (g a) := hd.bind (Decodes.pure (g a))
  rwa [List.append_nil] at hb

theorem congr {d d' : StateT (List τ) (Except ε) α} {l : List τ} {a : α} (hd : Decodes d l a)
    (h : ∀ s, d'.run s = d.run s) : Decodes d' l a :=
  fun rest => (h _).trans (hd rest)

end Decodes

/-- `w` appends exactly the tokens `l` to any buffer. -/
def Emits (w : StateT (List τ) (Except ε) PUnit) (l : List τ) : Prop :=
  ∀ buf, w.run buf = .ok (⟨⟩, buf ++ l)

namespace Emits

theorem pure : Emits (Pure.pure ⟨⟩ : StateT (List τ) (Except ε) PUnit) [] :=
  fun buf => by rw [List.append_nil]; rfl

theorem bind {w : StateT (List τ) (Except ε) PUnit} {f : PUnit → StateT (List τ) (Except ε) PUnit}
    {l₁ l₂ : List τ} (hw : Emits w l₁) (hf : Emits (f ⟨⟩) l₂) : Emits (w >>= f) (l₁ ++ l₂) := by
  intro buf
  rw [StateT.run_bind, hw buf, ← List.append_assoc]
  exact hf (buf ++ l₁)

theorem forM {f : α → StateT (List τ) (Except ε) PUnit} {g : α → List τ}
    (h : ∀ a, Emits (f a) (g a)) : ∀ l : List α, Emits (l.forM f) (l.flatMap g)
  | [] => Emits.pure
  | a :: l => (h a).bind (forM h l)

end Emits

/-- `w` writes `n` tokens, from which `d` reads back `a`. -/
def RoundTrip (w : StateT (List τ) (Except ε) PUnit) (d : StateT (List τ) (Except ε) α) (a : α)
    (n : Nat) : Prop :=
  ∃ l, Emits w l ∧ l.length = n ∧ Decodes d l a

namespace RoundTrip

theorem pure (a : α) :
    RoundTrip (Pure.pure ⟨⟩ : StateT (List τ) (Except ε) PUnit) (Pure.pure a) a 0 :=
  ⟨[], Emits.pure, rfl, Decodes.pure a⟩

/-- Sequencing: a record written field by field is read back field by field, and its length
is the sum of the lengths of its fields. -/
theorem bind {w : StateT (List τ) (Except ε) PUnit} {g : PUnit → StateT (List τ) (Except ε) PUnit}
    {d : StateT (List τ) (Except ε) α} {f : α → StateT (List τ) (Except ε) β} {a : α} {b : β}
    {n₁ n₂ : Nat} (h₁ : RoundTrip w d a n₁) (h₂ : RoundTrip (g ⟨⟩) (f a) b n₂) :
    RoundTrip (w >>= g) (d >>= f) b (n₁ + n₂) := by
  obtain ⟨l₁, hw, hl₁, hd⟩ := h₁
  obtain ⟨l₂, hg, hl₂, hf⟩ := h₂
  refine ⟨l₁ ++ l₂, hw.bind hg, ?_, hd.bind hf⟩
  rw [List.length_append, hl₁, hl₂]

theorem bind_nil {w : StateT (List τ) (Except ε) PUnit} {d : StateT (List τ) (Except ε) α}
    {f : α → StateT (List τ) (Except ε) β} {a : α} {b : β} {n : Nat} (h : RoundTrip w d a n)
    (hf : Decodes (f a) [] b) : RoundTrip w (d >>= f) b n := by
  obtain ⟨l, hw, hl, hd⟩ := h
  have hb := hd.bind hf
  rw [List.append_nil] at hb
  exact ⟨l, hw, hl, hb⟩

theorem bind_pure {w : StateT (List τ) (Except ε) PUnit} {d : StateT (List τ) (Except ε) α}
    {a : α} {n : Nat} (h : RoundTrip w d a n) (g : α → β) :
    RoundTrip w (d >>= fun x => Pure.pure (g x)) (g a) n :=
  h.bind_nil (Decodes.pure (g a))

theorem congr {w : StateT (List τ) (Except ε) PUnit} {d d' : StateT (List τ) (Except ε) α}
    {a : α} {n : Nat} (h : RoundTrip w d a n) (hd : ∀ s, d'.run s = d.run s) :
    RoundTrip w d' a n := by
  obtain ⟨l, hw, hl, hdl⟩ := h
  exact ⟨l, hw, hl, hdl.congr hd⟩

end RoundTrip

/-- `w` writes `n` tokens, the tag `t` first, from which `d` reads back `a`: the round trip of a
record that starts with a tag, which a dispatching decoder looks at first. -/
def Tagged (w : StateT (List τ) (Except ε) PUnit) (d : StateT (List τ) (Except ε) α) (t : τ) (a : α)
    (n : Nat) : Prop :=
  ∃ l, Emits w (t :: l) ∧ l.length + 1 = n ∧ Decodes d (t :: l) a

namespace Tagged

/-- The tag, then the fields: a tagged record is written and read as its tag followed by a
record. -/
theorem bind {w : StateT (List τ) (Except ε) PUnit} {g : PUnit → StateT (List τ) (Except ε) PUnit}
    {d : StateT (List τ) (Except ε) β} {f : β → StateT (List τ) (Except ε) α} {t : τ} {b : β}
    {a : α} {n : Nat} (hw : Emits w [t]) (hd : Decodes d [t] b) (h : RoundTrip (g ⟨⟩) (f b) a n) :
    Tagged (w >>= g) (d >>= f) t a (n + 1) := by
  obtain ⟨l, hg, hl, hf⟩ := h
  exact ⟨l, hw.bind hg, by rw [hl], hd.bind hf⟩

theorem bind_pure {w : StateT (List τ) (Except ε) PUnit} {d : StateT (List τ) (Except ε) β} {t : τ}
    {b : β} {n : Nat} (h : Tagged w d t b n) (g : β → α) :
    Tagged w (d >>= fun x => Pure.pure (g x)) t (g b) n := by
  obtain ⟨l, hw, hl, hd⟩ := h
  exact ⟨l, hw, hl, hd.bind_pure g⟩

theorem congr {w : StateT (List τ) (Except ε) PUnit} {d d' : StateT (List τ) (Except ε) α} {t : τ}
    {a : α} {n : Nat} (h : Tagged w d t a n)
    (hd : ∀ l, Decodes d (t :: l) a → Decodes d' (t :: l) a) : Tagged w d' t a n := by
  obtain ⟨l, hw, hl, hdl⟩ := h
  exact ⟨l, hw, hl, hd l hdl⟩

end Tagged

/-- `d` reads the whole stream `l` and returns `a`: a decoder that reads up to the end of its
input, whatever is there. -/
def DecodesAll (d : StateT (List τ) (Except ε) α) (l : List τ) (a : α) : Prop :=
  d.run l = .ok (a, [])

theorem Decodes.bind_all {d : StateT (List τ) (Except ε) α} {f : α → StateT (List τ) (Except ε) β}
    {l₁ l₂ : List τ} {a : α} {b : β} (hd : Decodes d l₁ a) (hf : DecodesAll (f a) l₂ b) :
    DecodesAll (d >>= f) (l₁ ++ l₂) b := by
  unfold DecodesAll
  rw [StateT.run_bind, hd l₂]
  exact hf

/-- A check that enough tokens are left, made before reading them: it passes on any stream that
starts with at least that many. -/
theorem Decodes.length_guard {j : Unit → StateT (List τ) (Except ε) α} {l : List τ} {a : α}
    {n : Nat} (e : ε) (hn : n ≤ l.length) (hj : Decodes (j ()) l a) :
    Decodes (get >>= fun s => if n > s.length then throw e >>= j else j ()) l a := by
  intro rest
  have hlen : ¬n > (l ++ rest).length := by
    rw [List.length_append]
    omega
  rw [StateT.run_bind]
  change (if n > (l ++ rest).length then throw e >>= j else j ()).run (l ++ rest) = _
  rw [if_neg hlen]
  exact hj rest

theorem Decodes.tryCatch {d : StateT (List τ) (Except ε) α}
    {h : ε → StateT (List τ) (Except ε) α} {l : List τ} {a : α} (hd : Decodes d l a) :
    Decodes (MonadExcept.tryCatch d h) l a := by
  intro rest
  change Except.tryCatch (d.run (l ++ rest)) _ = _
  rw [hd rest]
  rfl

/-! ### Readers that only consume -/

/-- `d` only reads from the front, and returns values of `P`: whenever it succeeds, the stream it
leaves is a suffix of the one it was given. -/
def Reads (P : α → Prop) (d : StateT (List τ) (Except ε) α) : Prop :=
  ∀ l a r, d.run l = .ok (a, r) → r <:+ l ∧ P a

namespace Reads

variable {P : α → Prop} {Q : β → Prop}

theorem pure {a : α} (h : P a) : Reads P (Pure.pure a : StateT (List τ) (Except ε) α) := by
  intro l b r hr
  cases hr
  exact ⟨List.suffix_refl l, h⟩

theorem get : Reads (fun _ => True) (MonadState.get : StateT (List τ) (Except ε) (List τ)) := by
  intro l b r hr
  cases hr
  exact ⟨List.suffix_refl l, trivial⟩

theorem throw (e : ε) : Reads P (MonadExcept.throw e : StateT (List τ) (Except ε) α) := by
  intro l b r hr
  cases hr

theorem bind {d : StateT (List τ) (Except ε) α} {f : α → StateT (List τ) (Except ε) β}
    (hd : Reads P d) (hf : ∀ a, P a → Reads Q (f a)) : Reads Q (d >>= f) := by
  intro l b r h
  rw [StateT.run_bind] at h
  cases hl : d.run l with
  | error e => rw [hl] at h; cases h
  | ok p =>
    rw [hl] at h
    obtain ⟨hsuf, hp⟩ := hd _ _ _ hl
    obtain ⟨hsuf', hq⟩ := hf p.1 hp _ _ _ h
    exact ⟨hsuf'.trans hsuf, hq⟩

theorem mono {P' : α → Prop} {d : StateT (List τ) (Except ε) α} (hd : Reads P d)
    (h : ∀ a, P a → P' a) : Reads P' d := by
  intro l a r hr
  obtain ⟨hsuf, hp⟩ := hd l a r hr
  exact ⟨hsuf, h a hp⟩

theorem ite {c : Prop} [Decidable c] {t e : StateT (List τ) (Except ε) α} (ht : Reads P t)
    (he : Reads P e) : Reads P (if c then t else e) := by
  split
  · exact ht
  · exact he

theorem tryCatch {d : StateT (List τ) (Except ε) α} {h : ε → StateT (List τ) (Except ε) α}
    (hd : Reads P d) (hh : ∀ e, Reads P (h e)) : Reads P (MonadExcept.tryCatch d h) := by
  intro l b r hr
  change Except.tryCatch (d.run l) _ = _ at hr
  cases hl : d.run l with
  | error e => rw [hl] at hr; exact hh e _ _ _ hr
  | ok p => rw [hl] at hr; cases hr; exact hd _ _ _ hl

/-- A reader that takes at least one token, followed by readers that only consume, takes at least
one token. -/
theorem shrinks_bind {d : StateT (List τ) (Except ε) α} {f : α → StateT (List τ) (Except ε) β}
    (hd : ∀ l a r, d.run l = .ok (a, r) → r.length < l.length) (hf : ∀ a, Reads Q (f a))
    {l r : List τ} {b : β} (h : (d >>= f).run l = .ok (b, r)) : r.length < l.length ∧ Q b := by
  rw [StateT.run_bind] at h
  cases hl : d.run l with
  | error e => rw [hl] at h; cases h
  | ok p =>
    rw [hl] at h
    obtain ⟨hsuf, hq⟩ := hf p.1 _ _ _ h
    exact ⟨Nat.lt_of_le_of_lt hsuf.length_le (hd _ _ _ hl), hq⟩

end Reads

end QuicGo.Lib
