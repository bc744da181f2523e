import TsxCore.Utf8Order

/-!
# Decoding UTF-8 with replacement

A decoder reads byte by byte and keeps the character it is in the middle of. A byte that cannot
continue it ends it with the replacement character and is read again. Every text is decoded back
from its bytes, and several byte strings may be decoded to one text.
-/

namespace TsxCore.Utf8

/-- A character that lacks some of its bytes, and the range of the next one. -/
structure Pending where
  needed : ℕ
  value : ℕ
  lower : ℕ
  upper : ℕ

def replacement : Char := '\uFFFD'

def lead (b : ℕ) : List Char × Option Pending :=
  if b ≤ 0x7f then ([.ofNat b], none)
  else if 0xc2 ≤ b ∧ b ≤ 0xdf then ([], some ⟨1, b - 0xc0, 0x80, 0xbf⟩)
  else if 0xe0 ≤ b ∧ b ≤ 0xef then
    ([], some ⟨2, b - 0xe0, if b = 0xe0 then 0xa0 else 0x80, if b = 0xed then 0x9f else 0xbf⟩)
  else if 0xf0 ≤ b ∧ b ≤ 0xf4 then
    ([], some ⟨3, b - 0xf0, if b = 0xf0 then 0x90 else 0x80, if b = 0xf4 then 0x8f else 0xbf⟩)
  else ([replacement], none)

def decodeByte : Option Pending → ℕ → List Char × Option Pending
  | none, b => lead b
  | some p, b =>
    if p.lower ≤ b ∧ b ≤ p.upper then
      let value := p.value * 64 + (b - 0x80)
      if p.needed = 1 then ([.ofNat value], none)
      else ([], some ⟨p.needed - 1, value, 0x80, 0xbf⟩)
    else (replacement :: (lead b).1, (lead b).2)

def decodeFrom : Option Pending → List ℕ → List Char
  | none, [] => []
  | some _, [] => [replacement]
  | pending, b :: rest => (decodeByte pending b).1 ++ decodeFrom (decodeByte pending b).2 rest

variable {rest : List ℕ} {b : ℕ} {p : Pending}

theorem decodeFrom_cons (pending : Option Pending) : decodeFrom pending (b :: rest) =
    (decodeByte pending b).1 ++ decodeFrom (decodeByte pending b).2 rest := by
  cases pending <;> rfl

theorem decodeFrom_more (hlower : p.lower ≤ b) (hupper : b ≤ p.upper) (hneeded : p.needed ≠ 1) :
    decodeFrom (some p) (b :: rest) =
      decodeFrom (some ⟨p.needed - 1, p.value * 64 + (b - 0x80), 0x80, 0xbf⟩) rest := by
  rw [decodeFrom_cons, decodeByte, if_pos ⟨hlower, hupper⟩]
  dsimp only
  rw [if_neg hneeded]
  rfl

theorem decodeFrom_last (hlower : p.lower ≤ b) (hupper : b ≤ p.upper) (hneeded : p.needed = 1) :
    decodeFrom (some p) (b :: rest) =
      .ofNat (p.value * 64 + (b - 0x80)) :: decodeFrom none rest := by
  rw [decodeFrom_cons, decodeByte, if_pos ⟨hlower, hupper⟩]
  dsimp only
  rw [if_pos hneeded]
  rfl

theorem lead_one (h : b ≤ 0x7f) :
    decodeFrom none (b :: rest) = .ofNat b :: decodeFrom none rest := by
  rw [decodeFrom_cons, decodeByte, lead, if_pos h]
  rfl

theorem lead_two (hlower : 0xc2 ≤ b) (hupper : b ≤ 0xdf) : decodeFrom none (b :: rest) =
    decodeFrom (some ⟨1, b - 0xc0, 0x80, 0xbf⟩) rest := by
  rw [decodeFrom_cons, decodeByte, lead, if_neg (by omega), if_pos ⟨hlower, hupper⟩]
  rfl

theorem lead_three (hlower : 0xe0 ≤ b) (hupper : b ≤ 0xef) : decodeFrom none (b :: rest) =
    decodeFrom (some ⟨2, b - 0xe0, if b = 0xe0 then 0xa0 else 0x80,
      if b = 0xed then 0x9f else 0xbf⟩) rest := by
  rw [decodeFrom_cons, decodeByte, lead, if_neg (by omega), if_neg (by omega),
    if_pos ⟨hlower, hupper⟩]
  rfl

theorem lead_four (hlower : 0xf0 ≤ b) (hupper : b ≤ 0xf4) : decodeFrom none (b :: rest) =
    decodeFrom (some ⟨3, b - 0xf0, if b = 0xf0 then 0x90 else 0x80,
      if b = 0xf4 then 0x8f else 0xbf⟩) rest := by
  rw [decodeFrom_cons, decodeByte, lead, if_neg (by omega), if_neg (by omega), if_neg (by omega),
    if_pos ⟨hlower, hupper⟩]
  rfl

theorem decodeFrom_encode (c : Char) :
    decodeFrom none (encode c ++ rest) = c :: decodeFrom none rest := by
  have hvalid : c.toNat < 0xd800 ∨ 0xdfff < c.toNat ∧ c.toNat < 0x110000 := c.valid
  have hchar {n : ℕ} (h : n = c.toNat) : Char.ofNat n = c := by
    rw [h, Char.ofNat_toNat]
  rw [encode_eq]
  split_ifs with hone htwo hthree
  · rw [List.singleton_append, lead_one hone, hchar rfl]
  · simp only [List.cons_append, List.nil_append]
    rw [lead_two (by omega) (by omega), decodeFrom_last (by dsimp only; omega)
      (by dsimp only; omega) rfl]
    rw [hchar (by dsimp only; omega)]
  · simp only [List.cons_append, List.nil_append]
    rw [lead_three (by omega) (by omega),
      decodeFrom_more (by dsimp only; split_ifs <;> omega) (by dsimp only; split_ifs <;> omega)
        (by dsimp only; omega),
      decodeFrom_last (by dsimp only; omega) (by dsimp only; omega) rfl]
    rw [hchar (by dsimp only; omega)]
  · simp only [List.cons_append, List.nil_append]
    rw [lead_four (by omega) (by omega),
      decodeFrom_more (by dsimp only; split_ifs <;> omega) (by dsimp only; split_ifs <;> omega)
        (by dsimp only; omega),
      decodeFrom_more (by dsimp only; omega) (by dsimp only; omega) (by dsimp only; omega),
      decodeFrom_last (by dsimp only; omega) (by dsimp only; omega) rfl]
    rw [hchar (by dsimp only; omega)]

theorem decodeFrom_flatMap_encode (characters : List Char) :
    decodeFrom none (characters.flatMap encode) = characters := by
  induction characters with
  | nil => rfl
  | cons c characters ih => rw [List.flatMap_cons, decodeFrom_encode, ih]

end TsxCore.Utf8
