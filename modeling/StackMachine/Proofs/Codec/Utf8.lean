import StackMachine.Utf8

/-!
# Characters and their bytes

Reading UTF-8 is the inverse of writing it, in both directions.  A character's bytes are read back
as that character whatever follows them, and bytes are read as a character only if they are the
bytes that the character is written with, so no character has a second spelling.

* `Utf8.scan_encodeChar` and `Utf8.eq_encodeChar_of_scan` are the two directions for one character.
* `Utf8.decodeFrom_encode_append` and `Utf8.eq_encode_of_decodeFrom` carry them over to texts.
-/

namespace StackMachine
namespace Utf8

/-! ## Bytes as numbers -/

/-- The class of a lead byte, with its ranges as ranges of numbers. -/
theorem lead_eq
    (b : UInt8) :
    lead b =
      if b.toNat < 0x80 then .single
      else if b.toNat < 0xC2 then .invalid
      else if b.toNat < 0xE0 then .multi 1 0x80 0xBF (b.toNat - 0xC0)
      else if b.toNat < 0xF0 then
        .multi 2 (if b.toNat = 0xE0 then 0xA0 else 0x80)
          (if b.toNat = 0xED then 0x9F else 0xBF) (b.toNat - 0xE0)
      else if b.toNat < 0xF5 then
        .multi 3 (if b.toNat = 0xF0 then 0x90 else 0x80)
          (if b.toNat = 0xF4 then 0x8F else 0xBF) (b.toNat - 0xF0)
      else .invalid := by
  simp only [lead, UInt8.lt_iff_toNat_lt, ← UInt8.toNat_inj]
  rfl

/-- A byte that carries six bits of a code point behind its lead byte. -/
theorem toNat_tailByte
    (n : Nat) :
    (UInt8.ofNat (n % 0x40 + 0x80)).toNat = n % 0x40 + 0x80 := by
  rw [UInt8.toNat_ofNat']
  omega

/-- A byte in the range is taken into the code point. -/
theorem scanTails_cons
    {tails bits used : Nat} {low high b : UInt8} {rest : List UInt8}
    (hlow : low.toNat ≤ b.toNat)
    (hhigh : b.toNat ≤ high.toNat) :
    scanTails (tails + 1) low high bits used (b :: rest) =
      scanTails tails 0x80 0xBF (bits * 64 + (b.toNat - 0x80)) (used + 1) rest := by
  have hrange : low ≤ b ∧ b ≤ high :=
    ⟨UInt8.le_iff_toNat_le.2 hlow, UInt8.le_iff_toNat_le.2 hhigh⟩
  simp [scanTails, hrange]

/-- If the bytes behind a lead byte complete a character, the first of them is in its range. -/
theorem scanTails_succ_eq_char
    {tails bits used n : Nat} {low high : UInt8} {bs rest : List UInt8} {c : Char}
    (h : scanTails (tails + 1) low high bits used bs = .char c n rest) :
    ∃ (b : UInt8) (bs' : List UInt8),
      bs = b :: bs' ∧ low.toNat ≤ b.toNat ∧ b.toNat ≤ high.toNat ∧
      scanTails tails 0x80 0xBF (bits * 64 + (b.toNat - 0x80)) (used + 1) bs' =
        .char c n rest := by
  cases bs with
  | nil =>
      simp [scanTails] at h
  | cons b bs' =>
      simp only [scanTails] at h
      split at h
      · next hrange =>
          exact ⟨b, bs', rfl, UInt8.le_iff_toNat_le.1 hrange.1,
            UInt8.le_iff_toNat_le.1 hrange.2, h⟩
      · cases h

/-- A code point is the code point of its character. -/
theorem toNat_val_ofNat
    {v : Nat}
    (h : v.isValidChar) :
    (Char.ofNat v).val.toNat = v := by
  rw [Char.ofNat, dif_pos h]
  exact UInt32.toNat_ofNatLT

/-! ## The table of well-formed sequences -/

/-- A byte that may stand behind a lead byte. -/
def IsTail (b : UInt8) : Prop :=
  0x80 ≤ b.toNat ∧ b.toNat ≤ 0xBF

/-- The byte sequences that spell one character, with its code point.  What the second byte may be
depends on the first: this is what excludes overlong forms, surrogates and numbers above
U+10FFFF. -/
inductive Spells : List UInt8 → Nat → Prop
  | one
      {b₀ : UInt8} {v : Nat}
      (hlead : b₀.toNat < 0x80)
      (hvalue : v = b₀.toNat) :
      Spells [b₀] v
  | two
      {b₀ b₁ : UInt8} {v : Nat}
      (hlead : 0xC2 ≤ b₀.toNat ∧ b₀.toNat < 0xE0)
      (htail : IsTail b₁)
      (hvalue : v = (b₀.toNat - 0xC0) * 64 + (b₁.toNat - 0x80)) :
      Spells [b₀, b₁] v
  | three
      {b₀ b₁ b₂ : UInt8} {v : Nat}
      (hlead : 0xE0 ≤ b₀.toNat ∧ b₀.toNat < 0xF0)
      (hsecond : IsTail b₁)
      (hlow : b₀.toNat = 0xE0 → 0xA0 ≤ b₁.toNat)
      (hhigh : b₀.toNat = 0xED → b₁.toNat ≤ 0x9F)
      (htail : IsTail b₂)
      (hvalue : v =
        ((b₀.toNat - 0xE0) * 64 + (b₁.toNat - 0x80)) * 64 + (b₂.toNat - 0x80)) :
      Spells [b₀, b₁, b₂] v
  | four
      {b₀ b₁ b₂ b₃ : UInt8} {v : Nat}
      (hlead : 0xF0 ≤ b₀.toNat ∧ b₀.toNat < 0xF5)
      (hsecond : IsTail b₁)
      (hlow : b₀.toNat = 0xF0 → 0x90 ≤ b₁.toNat)
      (hhigh : b₀.toNat = 0xF4 → b₁.toNat ≤ 0x8F)
      (hthird : IsTail b₂)
      (htail : IsTail b₃)
      (hvalue : v =
        (((b₀.toNat - 0xF0) * 64 + (b₁.toNat - 0x80)) * 64 + (b₂.toNat - 0x80)) * 64 +
          (b₃.toNat - 0x80)) :
      Spells [b₀, b₁, b₂, b₃] v

/-- Only code points of characters are spelled. -/
theorem Spells.isValidChar
    {bs : List UInt8} {v : Nat}
    (h : Spells bs v) :
    v.isValidChar := by
  unfold Nat.isValidChar
  cases h with
  | one hlead hvalue =>
      omega
  | two hlead htail hvalue =>
      unfold IsTail at htail
      omega
  | three hlead hsecond hlow hhigh htail hvalue =>
      unfold IsTail at hsecond htail
      omega
  | four hlead hsecond hlow hhigh hthird htail hvalue =>
      unfold IsTail at hsecond hthird htail
      omega

/-- A character is written with bytes that spell it. -/
theorem spells_encodeChar
    (c : Char) :
    Spells (String.utf8EncodeChar c) c.val.toNat := by
  have hvalid : c.val.toNat.isValidChar := c.valid
  unfold String.utf8EncodeChar
  generalize c.val.toNat = v at hvalid ⊢
  unfold Nat.isValidChar at hvalid
  have htail := toNat_tailByte
  by_cases h₁ : v ≤ 0x7f
  · have hb : (UInt8.ofNat v).toNat = v := by
      rw [UInt8.toNat_ofNat']
      omega
    simp only [h₁, ↓reduceIte]
    exact .one (by omega) (by omega)
  by_cases h₂ : v ≤ 0x7ff
  · have hb : (UInt8.ofNat (v / 64 % 0x20 + 0xc0)).toNat = v / 64 + 0xc0 := by
      rw [UInt8.toNat_ofNat']
      omega
    simp only [h₁, h₂, ↓reduceIte]
    refine .two (by omega) ?_ ?_
    · rw [IsTail, htail]
      omega
    · rw [hb, htail]
      omega
  by_cases h₃ : v ≤ 0xffff
  · have hb : (UInt8.ofNat (v / 4096 % 0x10 + 0xe0)).toNat = v / 4096 + 0xe0 := by
      rw [UInt8.toNat_ofNat']
      omega
    simp only [h₁, h₂, h₃, ↓reduceIte]
    refine .three (by omega) ?_ ?_ ?_ ?_ ?_
    · rw [IsTail, htail]
      omega
    · rw [hb, htail]
      omega
    · rw [hb, htail]
      omega
    · rw [IsTail, htail]
      omega
    · rw [hb, htail, htail]
      omega
  · have hb : (UInt8.ofNat (v / 262144 % 0x08 + 0xf0)).toNat = v / 262144 + 0xf0 := by
      rw [UInt8.toNat_ofNat']
      omega
    simp only [h₁, h₂, h₃, ↓reduceIte]
    refine .four (by omega) ?_ ?_ ?_ ?_ ?_ ?_
    · rw [IsTail, htail]
      omega
    · rw [hb, htail]
      omega
    · rw [hb, htail]
      omega
    · rw [IsTail, htail]
      omega
    · rw [IsTail, htail]
      omega
    · rw [hb, htail, htail, htail]
      omega

/-- A byte is the byte of its number. -/
theorem eq_ofNat_of_toNat
    {b : UInt8} {n : Nat}
    (h : b.toNat = n) :
    b = UInt8.ofNat n := by
  rw [← h, UInt8.ofNat_toNat]

/-- Bytes that spell a character are the bytes that it is written with. -/
theorem Spells.eq_encodeChar
    {bs : List UInt8} {v : Nat}
    (h : Spells bs v) :
    bs = String.utf8EncodeChar (Char.ofNat v) := by
  unfold String.utf8EncodeChar
  simp only [toNat_val_ofNat h.isValidChar]
  cases h with
  | one hlead hvalue =>
      have h₁ : v ≤ 0x7f := by omega
      simp only [h₁, ↓reduceIte]
      rw [hvalue, UInt8.ofNat_toNat]
  | @two b₀ b₁ _ hlead htail hvalue =>
      unfold IsTail at htail
      have h₁ : ¬ v ≤ 0x7f := by omega
      have h₂ : v ≤ 0x7ff := by omega
      have hb₀ : b₀ = UInt8.ofNat (v / 64 % 0x20 + 0xc0) := eq_ofNat_of_toNat (by omega)
      have hb₁ : b₁ = UInt8.ofNat (v % 0x40 + 0x80) := eq_ofNat_of_toNat (by omega)
      simp only [h₁, h₂, ↓reduceIte]
      rw [← hb₀, ← hb₁]
  | @three b₀ b₁ b₂ _ hlead hsecond hlow hhigh htail hvalue =>
      unfold IsTail at hsecond htail
      have h₁ : ¬ v ≤ 0x7f := by omega
      have h₂ : ¬ v ≤ 0x7ff := by omega
      have h₃ : v ≤ 0xffff := by omega
      have hb₀ : b₀ = UInt8.ofNat (v / 4096 % 0x10 + 0xe0) := eq_ofNat_of_toNat (by omega)
      have hb₁ : b₁ = UInt8.ofNat (v / 64 % 0x40 + 0x80) := eq_ofNat_of_toNat (by omega)
      have hb₂ : b₂ = UInt8.ofNat (v % 0x40 + 0x80) := eq_ofNat_of_toNat (by omega)
      simp only [h₁, h₂, h₃, ↓reduceIte]
      rw [← hb₀, ← hb₁, ← hb₂]
  | @four b₀ b₁ b₂ b₃ _ hlead hsecond hlow hhigh hthird htail hvalue =>
      unfold IsTail at hsecond hthird htail
      have h₁ : ¬ v ≤ 0x7f := by omega
      have h₂ : ¬ v ≤ 0x7ff := by omega
      have h₃ : ¬ v ≤ 0xffff := by omega
      have hb₀ : b₀ = UInt8.ofNat (v / 262144 % 0x08 + 0xf0) := eq_ofNat_of_toNat (by omega)
      have hb₁ : b₁ = UInt8.ofNat (v / 4096 % 0x40 + 0x80) := eq_ofNat_of_toNat (by omega)
      have hb₂ : b₂ = UInt8.ofNat (v / 64 % 0x40 + 0x80) := eq_ofNat_of_toNat (by omega)
      have hb₃ : b₃ = UInt8.ofNat (v % 0x40 + 0x80) := eq_ofNat_of_toNat (by omega)
      simp only [h₁, h₂, h₃, ↓reduceIte]
      rw [← hb₀, ← hb₁, ← hb₂, ← hb₃]

/-! ## One character -/

theorem IsTail.scanTails_cons
    {b : UInt8}
    (h : IsTail b)
    (tails bits used : Nat) (rest : List UInt8) :
    scanTails (tails + 1) 0x80 0xBF bits used (b :: rest) =
      scanTails tails 0x80 0xBF (bits * 64 + (b.toNat - 0x80)) (used + 1) rest :=
  Utf8.scanTails_cons h.1 h.2

/-- The bytes of one character are read as that character, whatever follows them. -/
theorem Spells.scan_eq
    {b : UInt8} {tail : List UInt8} {v : Nat}
    (h : Spells (b :: tail) v)
    (rest : List UInt8) :
    scan b (tail ++ rest) = .char (Char.ofNat v) (tail.length + 1) rest := by
  cases h with
  | one hlead hvalue =>
      have hclass : lead b = .single := by
        rw [lead_eq, if_pos hlead]
      rw [scan, hclass, hvalue]
      rfl
  | two hlead htail hvalue =>
      have hclass : lead b = .multi 1 0x80 0xBF (b.toNat - 0xC0) := by
        rw [lead_eq, if_neg (by omega), if_neg (by omega), if_pos (by omega)]
      simp only [scan, hclass, List.cons_append, List.nil_append]
      rw [htail.scanTails_cons, scanTails, hvalue]
      rfl
  | three hlead hsecond hlow hhigh htail hvalue =>
      have hclass : lead b =
          .multi 2 (if b.toNat = 0xE0 then 0xA0 else 0x80)
            (if b.toNat = 0xED then 0x9F else 0xBF) (b.toNat - 0xE0) := by
        rw [lead_eq, if_neg (by omega), if_neg (by omega), if_neg (by omega),
          if_pos (by omega)]
      simp only [scan, hclass, List.cons_append, List.nil_append]
      rw [scanTails_cons _ _, htail.scanTails_cons, scanTails, hvalue]
      · rfl
      · split
        · next hb => exact hlow hb
        · exact hsecond.1
      · split
        · next hb => exact hhigh hb
        · exact hsecond.2
  | four hlead hsecond hlow hhigh hthird htail hvalue =>
      have hclass : lead b =
          .multi 3 (if b.toNat = 0xF0 then 0x90 else 0x80)
            (if b.toNat = 0xF4 then 0x8F else 0xBF) (b.toNat - 0xF0) := by
        rw [lead_eq, if_neg (by omega), if_neg (by omega), if_neg (by omega),
          if_neg (by omega), if_pos (by omega)]
      simp only [scan, hclass, List.cons_append, List.nil_append]
      rw [scanTails_cons _ _, hthird.scanTails_cons, htail.scanTails_cons, scanTails, hvalue]
      · rfl
      · split
        · next hb => exact hlow hb
        · exact hsecond.1
      · split
        · next hb => exact hhigh hb
        · exact hsecond.2

/-- The five classes of bytes where a character is expected. -/
theorem lead_cases
    (b : UInt8) :
    (lead b = .single ∧ b.toNat < 0x80) ∨
    (lead b = .multi 1 0x80 0xBF (b.toNat - 0xC0) ∧ 0xC2 ≤ b.toNat ∧ b.toNat < 0xE0) ∨
    (lead b = .multi 2 (if b.toNat = 0xE0 then 0xA0 else 0x80)
        (if b.toNat = 0xED then 0x9F else 0xBF) (b.toNat - 0xE0) ∧
      0xE0 ≤ b.toNat ∧ b.toNat < 0xF0) ∨
    (lead b = .multi 3 (if b.toNat = 0xF0 then 0x90 else 0x80)
        (if b.toNat = 0xF4 then 0x8F else 0xBF) (b.toNat - 0xF0) ∧
      0xF0 ≤ b.toNat ∧ b.toNat < 0xF5) ∨
    (lead b = .invalid ∧ (0x80 ≤ b.toNat ∧ b.toNat < 0xC2 ∨ 0xF5 ≤ b.toNat)) := by
  have hlead := lead_eq b
  by_cases h₁ : b.toNat < 0x80
  · rw [if_pos h₁] at hlead
    exact Or.inl ⟨hlead, h₁⟩
  rw [if_neg h₁] at hlead
  by_cases h₂ : b.toNat < 0xC2
  · rw [if_pos h₂] at hlead
    exact Or.inr (Or.inr (Or.inr (Or.inr ⟨hlead, by omega⟩)))
  rw [if_neg h₂] at hlead
  by_cases h₃ : b.toNat < 0xE0
  · rw [if_pos h₃] at hlead
    exact Or.inr (Or.inl ⟨hlead, by omega⟩)
  rw [if_neg h₃] at hlead
  by_cases h₄ : b.toNat < 0xF0
  · rw [if_pos h₄] at hlead
    exact Or.inr (Or.inr (Or.inl ⟨hlead, by omega⟩))
  rw [if_neg h₄] at hlead
  by_cases h₅ : b.toNat < 0xF5
  · rw [if_pos h₅] at hlead
    exact Or.inr (Or.inr (Or.inr (Or.inl ⟨hlead, by omega⟩)))
  · rw [if_neg h₅] at hlead
    exact Or.inr (Or.inr (Or.inr (Or.inr ⟨hlead, by omega⟩)))

/-- A lower bound that some lead bytes raise. -/
theorem low_of_ite
    {p : Prop} [Decidable p] {raised : UInt8} {n : Nat}
    (hraised : 0x80 ≤ raised.toNat)
    (h : (if p then raised else 0x80).toNat ≤ n) :
    0x80 ≤ n ∧ (p → raised.toNat ≤ n) := by
  split at h
  · next hp => exact ⟨Nat.le_trans hraised h, fun _ => h⟩
  · next hp => exact ⟨h, fun hp' => absurd hp' hp⟩

/-- An upper bound that some lead bytes lower. -/
theorem high_of_ite
    {p : Prop} [Decidable p] {lowered : UInt8} {n : Nat}
    (hlowered : lowered.toNat ≤ 0xBF)
    (h : n ≤ (if p then lowered else 0xBF).toNat) :
    n ≤ 0xBF ∧ (p → n ≤ lowered.toNat) := by
  split at h
  · next hp => exact ⟨Nat.le_trans h hlowered, fun _ => h⟩
  · next hp => exact ⟨h, fun hp' => absurd hp' hp⟩

/-- What is read as a character starts with bytes that spell it. -/
theorem spells_of_scan
    {b : UInt8} {bs rest : List UInt8} {c : Char} {n : Nat}
    (h : scan b bs = .char c n rest) :
    ∃ (tail : List UInt8) (v : Nat),
      bs = tail ++ rest ∧ n = tail.length + 1 ∧ c = Char.ofNat v ∧ Spells (b :: tail) v := by
  unfold scan at h
  rcases lead_cases b with
    ⟨hclass, hb⟩ | ⟨hclass, hb⟩ | ⟨hclass, hb⟩ | ⟨hclass, hb⟩ | ⟨hclass, _⟩
  · simp only [hclass, Scan.char.injEq] at h
    obtain ⟨rfl, rfl, rfl⟩ := h
    exact ⟨[], b.toNat, rfl, rfl, rfl, .one hb rfl⟩
  · simp only [hclass] at h
    obtain ⟨b₁, bs₁, rfl, hlow₁, hhigh₁, h⟩ := scanTails_succ_eq_char h
    simp only [scanTails, Scan.char.injEq] at h
    obtain ⟨rfl, rfl, rfl⟩ := h
    exact ⟨[b₁], _, rfl, rfl, rfl, .two hb ⟨hlow₁, hhigh₁⟩ rfl⟩
  · simp only [hclass] at h
    obtain ⟨b₁, bs₁, rfl, hlow₁, hhigh₁, h⟩ := scanTails_succ_eq_char h
    obtain ⟨b₂, bs₂, rfl, hlow₂, hhigh₂, h⟩ := scanTails_succ_eq_char h
    simp only [scanTails, Scan.char.injEq] at h
    obtain ⟨rfl, rfl, rfl⟩ := h
    obtain ⟨hlow, hraised⟩ := low_of_ite (by decide) hlow₁
    obtain ⟨hhigh, hlowered⟩ := high_of_ite (by decide) hhigh₁
    exact ⟨[b₁, b₂], _, rfl, rfl, rfl,
      .three hb ⟨hlow, hhigh⟩ hraised hlowered ⟨hlow₂, hhigh₂⟩ rfl⟩
  · simp only [hclass] at h
    obtain ⟨b₁, bs₁, rfl, hlow₁, hhigh₁, h⟩ := scanTails_succ_eq_char h
    obtain ⟨b₂, bs₂, rfl, hlow₂, hhigh₂, h⟩ := scanTails_succ_eq_char h
    obtain ⟨b₃, bs₃, rfl, hlow₃, hhigh₃, h⟩ := scanTails_succ_eq_char h
    simp only [scanTails, Scan.char.injEq] at h
    obtain ⟨rfl, rfl, rfl⟩ := h
    obtain ⟨hlow, hraised⟩ := low_of_ite (by decide) hlow₁
    obtain ⟨hhigh, hlowered⟩ := high_of_ite (by decide) hhigh₁
    exact ⟨[b₁, b₂, b₃], _, rfl, rfl, rfl,
      .four hb ⟨hlow, hhigh⟩ hraised hlowered ⟨hlow₂, hhigh₂⟩ ⟨hlow₃, hhigh₃⟩ rfl⟩
  · simp [hclass] at h

/-- A character is read back from its bytes, whatever follows them. -/
theorem scan_encodeChar
    (c : Char) (rest : List UInt8) :
    ∃ (b : UInt8) (tail : List UInt8),
      String.utf8EncodeChar c = b :: tail ∧
      scan b (tail ++ rest) = .char c (tail.length + 1) rest := by
  have hspells := spells_encodeChar c
  cases hbytes : String.utf8EncodeChar c with
  | nil =>
      exact absurd hbytes String.utf8EncodeChar_ne_nil
  | cons b tail =>
      rw [hbytes] at hspells
      have hscan := hspells.scan_eq rest
      rw [show Char.ofNat c.val.toNat = c from Char.ofNat_toNat c] at hscan
      exact ⟨b, tail, rfl, hscan⟩

/-- Bytes are read as a character only if they start with the bytes that it is written with. -/
theorem eq_encodeChar_of_scan
    {b : UInt8} {bs rest : List UInt8} {c : Char} {n : Nat}
    (h : scan b bs = .char c n rest) :
    b :: bs = String.utf8EncodeChar c ++ rest ∧ n = (String.utf8EncodeChar c).length := by
  obtain ⟨tail, v, rfl, rfl, rfl, hspells⟩ := spells_of_scan h
  rw [← hspells.eq_encodeChar]
  exact ⟨rfl, rfl⟩

/-! ## Texts -/

/-- Reading goes through the bytes of a text and then on to what follows them. -/
theorem decodeFrom_encode_append
    (cs : List Char) (position : Nat) (done : List Char) (bs : List UInt8) :
    decodeFrom position done (encode cs ++ bs) =
      decodeFrom (position + (encode cs).length) (cs.reverse ++ done) bs := by
  induction cs generalizing position done with
  | nil =>
      simp
  | cons c cs ih =>
      obtain ⟨b, tail, hbytes, hscan⟩ := scan_encodeChar c (encode cs ++ bs)
      have hencode : encode (c :: cs) = b :: (tail ++ encode cs) := by
        simp [encode, hbytes]
      have hposition : position + (tail.length + 1) + (encode cs).length =
          position + (b :: (tail ++ encode cs)).length := by
        simp only [List.length_cons, List.length_append]
        omega
      rw [hencode, List.cons_append, List.append_assoc, decodeFrom]
      split
      · next c' n rest' h =>
          rw [hscan, Scan.char.injEq] at h
          obtain ⟨rfl, rfl, rfl⟩ := h
          rw [ih, hposition]
          simp
      · next n reason h =>
          rw [hscan] at h
          cases h

/-- A text is read back from its bytes. -/
@[simp] theorem decode_encode_chars
    (cs : List Char) :
    decode (encode cs) = .ok cs := by
  have h := decodeFrom_encode_append cs 0 [] []
  rw [List.append_nil] at h
  rw [decode, h, decodeFrom]
  simp

/-- What is read as a text is the bytes that it is written with. -/
theorem eq_encode_of_decodeFrom
    {position : Nat} {done cs : List Char} {bs : List UInt8}
    (h : decodeFrom position done bs = .ok cs) :
    ∃ ds : List Char, cs = done.reverse ++ ds ∧ bs = encode ds := by
  fun_induction decodeFrom position done bs with
  | case1 position done =>
      cases h
      exact ⟨[], by simp, rfl⟩
  | case2 position done b rest c n rest' hscan ih =>
      obtain ⟨ds, rfl, rfl⟩ := ih h
      refine ⟨c :: ds, by simp, ?_⟩
      rw [(eq_encodeChar_of_scan hscan).1]
      rfl
  | case3 position done b rest n reason hscan =>
      cases h

/-- Only the bytes of a text are read as that text. -/
theorem encode_of_decode_chars
    {bs : List UInt8} {cs : List Char}
    (h : decode bs = .ok cs) :
    encode cs = bs := by
  obtain ⟨ds, rfl, rfl⟩ := eq_encode_of_decodeFrom h
  rfl

/-- Bytes that are not read are those of no text. -/
theorem encode_ne_of_decode_error
    {bs : List UInt8} {f : Fault}
    (h : decode bs = .error f)
    (cs : List Char) :
    encode cs ≠ bs := by
  rintro rfl
  rw [decode_encode_chars] at h
  cases h

/-! ## Bytes of a string -/

theorem toByteArray_eq
    (s : String) :
    s.toByteArray = (encode s.toList).toByteArray := by
  rw [← String.utf8Encode_toList]
  rfl

theorem length_encode_toList
    (s : String) :
    (encode s.toList).length = s.utf8ByteSize := by
  rw [← String.size_toByteArray, toByteArray_eq, List.size_toByteArray]

/-- The bytes of a text's characters are the bytes that a string keeps. -/
theorem encode_toList
    (s : String) :
    encode s.toList = s.toUTF8.data.toList := by
  have hbytes : s.toUTF8 = (encode s.toList).toByteArray := toByteArray_eq s
  rw [hbytes, List.toList_data_toByteArray]

end Utf8
end StackMachine
