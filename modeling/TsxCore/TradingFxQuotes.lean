import TsxCore.TradingRational

/-!
# Conversion evidence (`trading_fx_quotes.ts`)

A conversion is a rate between two assets with the times of the quotes it was
derived from. Its evidence hash is the digest of all other fields; `digest`
stands for `fxEvidenceDigest('tsx-fx-conversion-v1', ·)`, which may refuse a value
that is too large, and `now` for the reading of `Date.now()`.
-/

namespace TsxCore.TradingFxQuotes

open Outcome TradingRational

inductive FxMode
  | live
  | testnet

/-- `FxConversionEvidence` without its hash; `asOf` is the source's field `at`. -/
structure FxConversion where
  version : ℕ
  valuationBasis : String
  policy : String
  mode : FxMode
  profileHash : String
  baseAsset : String
  quoteAsset : String
  asOf : ℤ
  earliestAt : ℤ
  latestAt : ℤ
  expiresAt : ℤ
  rate : ExactRational
  receiptHashes : List String

structure FxConversionEvidence extends FxConversion where
  evidenceHash : String

structure StoredFxConversion where
  id : String
  conversion : FxConversionEvidence

/-- `invalidFx(reason)`. -/
def invalidFx (reason : String) : Thrown :=
  ⟨"FxEvidenceError", some ("FX_" ++ reason), "FX_" ++ reason⟩

def assertFxConversionFresh (digest : FxConversion → Outcome String) (now : ℤ)
    (value : FxConversionEvidence) : Outcome Unit := do
  throwIf (value.evidenceHash ≠ (← digest value.toFxConversion) ∨ value.version ≠ 1 ∨
      value.policy ≠ "stable-index-asof-10s-v1" ∨
      value.valuationBasis ≠ "provider_snapshot_index_asof" ∨
      ¬ (∀ time ∈ [value.asOf, value.earliestAt, value.latestAt, value.expiresAt, now],
        isSafeInteger time) ∨
      value.earliestAt < 0 ∨ value.latestAt < value.earliestAt ∨
      1000 < value.latestAt - value.earliestAt ∨ value.asOf < value.latestAt ∨
      value.expiresAt < value.asOf ∨ value.expiresAt ≠ value.earliestAt + 10000 ∨
      now < value.latestAt ∨ value.expiresAt < now)
    (invalidFx "QUOTE_EXPIRED_OR_CHANGED")

end TsxCore.TradingFxQuotes
