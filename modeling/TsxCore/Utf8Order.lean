import Mathlib.Tactic
import Mathlib.Data.String.Basic

/-!
# The order of UTF-8 texts

Comparing the bytes of two UTF-8 texts orders them as comparing their code points
does: the bytes of two characters differ first at a position that decides for the
larger character.
-/

namespace TsxCore.Utf8

def encode (c : Char) : List ℕ := (String.utf8EncodeChar c).map UInt8.toNat

/-- `Buffer.from(text)`. -/
def bytes (text : String) : List ℕ := text.toList.flatMap encode

theorem encode_eq (c : Char) : encode c =
    if c.toNat ≤ 0x7f then [c.toNat]
    else if c.toNat ≤ 0x7ff then [0xc0 + c.toNat / 64, 0x80 + c.toNat % 64]
    else if c.toNat ≤ 0xffff then
      [0xe0 + c.toNat / 4096, 0x80 + c.toNat / 64 % 64, 0x80 + c.toNat % 64]
    else [0xf0 + c.toNat / 262144, 0x80 + c.toNat / 4096 % 64, 0x80 + c.toNat / 64 % 64,
      0x80 + c.toNat % 64] := by
  have hvalid : c.toNat < 0x110000 := by
    have hchar : c.toNat.isValidChar := c.valid
    rcases hchar with h | h
    · omega
    · exact h.2
  have hval : c.val.toNat = c.toNat := rfl
  simp only [encode, String.utf8EncodeChar, hval]
  split_ifs <;>
    simp only [List.map_cons, List.map_nil, UInt8.toNat_ofNat', List.cons.injEq, and_true] <;> omega

/-- The lists differ at a position of both, where the first one is smaller. -/
inductive Below : List ℕ → List ℕ → Prop
  | head {a b : ℕ} {s t : List ℕ} : a < b → Below (a :: s) (b :: t)
  | tail {a b : ℕ} {s t : List ℕ} : a = b → Below s t → Below (a :: s) (b :: t)

theorem Below.append_lt {x y : List ℕ} (h : Below x y) (s t : List ℕ) : x ++ s < y ++ t := by
  induction h with
  | head hlt => exact List.Lex.rel hlt
  | tail heq _ ih =>
    rw [heq]
    exact List.Lex.cons ih

theorem below_encode {c d : Char} (h : c < d) : Below (encode c) (encode d) := by
  have hlt : c.toNat < d.toNat := h
  rw [encode_eq c, encode_eq d]
  generalize c.toNat = m at hlt ⊢
  generalize d.toNat = n at hlt ⊢
  -- Longer encodings start with larger bytes; equally long ones are compared digit by digit.
  split_ifs with hone hone' htwo' hthree' htwo hone' htwo' hthree' hthree hone' htwo' hthree'
    hone' htwo' hthree'
  · exact .head hlt
  · exact .head (by omega)
  · exact .head (by omega)
  · exact .head (by omega)
  · omega
  · rcases Nat.lt_or_ge (m / 64) (n / 64) with h | h
    · exact .head (by omega)
    · exact .tail (by omega) (.head (by omega))
  · exact .head (by omega)
  · exact .head (by omega)
  · omega
  · omega
  · rcases Nat.lt_or_ge (m / 4096) (n / 4096) with h | h
    · exact .head (by omega)
    rcases Nat.lt_or_ge (m / 64) (n / 64) with h | h
    · exact .tail (by omega) (.head (by omega))
    · exact .tail (by omega) (.tail (by omega) (.head (by omega)))
  · exact .head (by omega)
  · omega
  · omega
  · omega
  · rcases Nat.lt_or_ge (m / 262144) (n / 262144) with h | h
    · exact .head (by omega)
    rcases Nat.lt_or_ge (m / 4096) (n / 4096) with h | h
    · exact .tail (by omega) (.head (by omega))
    rcases Nat.lt_or_ge (m / 64) (n / 64) with h | h
    · exact .tail (by omega) (.tail (by omega) (.head (by omega)))
    · exact .tail (by omega) (.tail (by omega) (.tail (by omega) (.head (by omega))))

theorem flatMap_encode_lt {s t : List Char} (h : s < t) :
    s.flatMap encode < t.flatMap encode := by
  induction h with
  | nil =>
    rename_i c cs
    have hne : encode c ≠ [] := by
      rw [encode_eq]
      split_ifs <;> simp
    obtain ⟨b, bs, hb⟩ := List.exists_cons_of_ne_nil hne
    rw [List.flatMap_nil, List.flatMap_cons, hb]
    exact List.Lex.nil
  | rel hlt =>
    rw [List.flatMap_cons, List.flatMap_cons]
    exact (below_encode hlt).append_lt _ _
  | cons _ ih =>
    rw [List.flatMap_cons, List.flatMap_cons]
    exact List.append_left_lt ih

theorem bytes_lt_iff {s t : String} : bytes s < bytes t ↔ s < t := by
  refine ⟨?_, ?_⟩
  · intro h
    rcases lt_trichotomy s t with hlt | heq | hgt
    · exact hlt
    · rw [heq] at h
      exact absurd h (lt_irrefl _)
    · exact absurd h (flatMap_encode_lt (String.lt_iff_toList_lt.mp hgt)).asymm
  · intro h
    exact flatMap_encode_lt (String.lt_iff_toList_lt.mp h)

theorem bytes_le_iff {s t : String} : bytes s ≤ bytes t ↔ s ≤ t := by
  rw [← not_lt, bytes_lt_iff, not_lt]

end TsxCore.Utf8
