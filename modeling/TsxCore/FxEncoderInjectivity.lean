import TsxCore.FxReceiptAgreement

/-!
# The canonical encoder tells documents apart

Documents have one text exactly when they are the same up to the order of their members. Numbers are
rational, so that 0 has one form. What is left for two documents to share a digest is a collision of
the hash function.
-/

namespace TsxCore.FxReceipt

open TradingFx

variable {left right : Json ℚ} {depth depth' : ℕ} {remaining remaining' rest rest' : ℤ}
  {text text' : List Char}

theorem canonical_text (h : canonical left depth remaining = .ok (text, rest)) :
    Admissible NumberAllowed left depth ∧ text = left.dumps nodeNumber := by
  obtain ⟨hadm, -, -, htext⟩ := (nodeEncodes left depth _ _ _).mp h
  exact ⟨hadm, htext⟩

/-- Texts that the encoder returns, whatever it may still spend. -/
theorem canonical_eq_iff (hleft : left.Distinct)
    (h : canonical left depth remaining = .ok (text, rest))
    (h' : canonical right depth' remaining' = .ok (text', rest')) :
    text = text' ↔ left.Same right := by
  obtain ⟨hadm, rfl⟩ := canonical_text h
  obtain ⟨hadm', rfl⟩ := canonical_text h'
  constructor
  · intro htexts
    exact Json.same_of_sorted (sorted_eq_of_text hadm hadm' htexts)
  · exact Json.dumps_eq_of_same hleft

theorem collision_of_digest {sha256 : String → String} {domain digest : String}
    (h : fxEvidenceDigest sha256 domain left = .ok digest)
    (h' : fxEvidenceDigest sha256 domain right = .ok digest) (hother : ¬ left.Same right) :
    ∃ x y, x ≠ y ∧ sha256 x = sha256 y := by
  obtain ⟨hadm, hdig⟩ := fxEvidenceDigest_ok h
  obtain ⟨hadm', hdig'⟩ := fxEvidenceDigest_ok h'
  refine ⟨_, _, ?_, hdig.symm.trans hdig'⟩
  intro htexts
  rw [String.append_right_inj, String.ofList_inj] at htexts
  exact hother (Json.same_of_sorted (sorted_eq_of_text hadm hadm' htexts))

theorem canonical_text_injective (left right : Json ℚ) (hleft : left.Distinct) :
    (∀ depth depth' remaining remaining' text text' rest rest',
      canonical left depth remaining = .ok (text, rest) →
        canonical right depth' remaining' = .ok (text', rest') →
          (text = text' ↔ left.Same right)) ∧
    ∀ sha256 domain digest, fxEvidenceDigest sha256 domain left = .ok digest →
      fxEvidenceDigest sha256 domain right = .ok digest → ¬ left.Same right →
        ∃ x y, x ≠ y ∧ sha256 x = sha256 y :=
  ⟨fun _ _ _ _ _ _ _ _ h h' => canonical_eq_iff hleft h h',
    fun _ _ _ h h' hother => collision_of_digest h h' hother⟩

section Sample

def document : Json ℚ := .object [("b", .array [.null, .number 0]), ("a", .string "x")]

/-- The document with its members the other way round. -/
def reordered : Json ℚ := .object [("a", .string "x"), ("b", .array [.null, .number 0])]

theorem canonical_text_injective_document :
    document.Same reordered ∧ ∃ text rest, canonical document 0 512 = .ok (text, rest) ∧
      canonical reordered 0 512 = .ok (text, rest) := by
  have hdist : document.Distinct := by
    simp [document, Json.Distinct, Json.DistinctMembers, Json.DistinctItems]
  have hdoc : canonical document 0 512 =
      .ok ("\x7b\"a\":\"x\",\"b\":[null,0]\x7d".toList, 505) := by decide +kernel
  have hreordered : canonical reordered 0 512 =
      .ok ("\x7b\"a\":\"x\",\"b\":[null,0]\x7d".toList, 505) := by decide +kernel
  exact ⟨((canonical_text_injective document reordered hdist).1 0 0 512 512 _ _ _ _ hdoc
    hreordered).mp rfl, _, _, hdoc, hreordered⟩

end Sample

end TsxCore.FxReceipt
