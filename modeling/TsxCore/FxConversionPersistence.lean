import TsxCore.FxConversionStore

/-!
# Persisting a conversion

Whether its id is new or stored already, a persisted conversion ends as a sound row with
the payload just derived: under an injective `sha256` one id stands for one conversion
of one account.
-/

namespace TsxCore.TradingFxRepository

open Outcome TradingDecimal TradingFxQuotes
open TradingFx (FxContext fxEvidenceDigest)

variable {sha256 : String → String} {now clock asOf : ℤ} {account : FxAccount}
  {context : FxContext} {db after : Database} {id baseAsset quoteAsset : String}
  {conversion : FxConversionEvidence} {originals rows : List ReceiptRow}

/-- What holds of the tables at every point of a run. -/
structure Sound (sha256 : String → String) (clock : ℤ) (db : Database) : Prop where
  receipts : ∀ row ∈ db.receipts.rows, ReceiptSound sha256 clock row
  conversions : ∀ row ∈ db.conversions.rows, ∃ originals, ConversionSound sha256 clock db row
    originals
  references : ∀ reference ∈ db.references.rows,
    (db.conversions.find reference.conversionId).isSome

theorem Sound.later (h : Sound sha256 clock db) (hle : clock ≤ now) : Sound sha256 now db where
  receipts row hrow := (h.receipts row hrow).later hle
  conversions row hrow := by
    obtain ⟨originals, horigs⟩ := h.conversions row hrow
    exact ⟨originals, horigs.mono hle (fun _ hr => hr) rfl⟩
  references := h.references

section Identity

theorem modeText_fxMode {mode : String} (h : mode = "live" ∨ mode = "testnet") :
    modeText (fxMode mode) = mode := by
  rcases h with rfl | rfl <;> rfl

theorem modeText_injective {a b : FxMode} (h : modeText a = modeText b) : a = b := by
  cases a <;> cases b <;> first | rfl | exact absurd h (by decide)

theorem sortedItems_texts (texts : List String) :
    Json.sortedItems (texts.map Json.string : List (Json ℚ)) = texts.map .string := by
  rw [Json.sortedItems_eq, List.map_map]
  rfl

theorem nodup_conversionMembers (value : FxConversion) :
    ((conversionMembers value).map (·.1)).Nodup := by
  simp only [conversionMembers, List.map_cons, List.map_nil]
  decide

theorem conversion_of_digest {a b : FxConversion} {digest : String}
    (hinj : Function.Injective sha256) (ha : conversionDigest sha256 a = .ok digest)
    (hb : conversionDigest sha256 b = .ok digest) : a = b := by
  have hlook := lookup_sorted (nodup_conversionMembers a) (nodup_conversionMembers b)
    (sorted_of_digest hinj ha hb)
  obtain ⟨version, valuationBasis, policy, mode, profileHash, baseAsset, quoteAsset, asOf,
    earliestAt,
    latestAt, expiresAt, ⟨numerator, denominator⟩, receiptHashes⟩ := a
  obtain ⟨version', valuationBasis', policy', mode', profileHash', baseAsset', quoteAsset', asOf',
    earliestAt', latestAt', expiresAt', ⟨numerator', denominator'⟩, receiptHashes'⟩ := b
  have hflds := fields_of_digest hinj (nodup_conversionMembers _)
    (nodup_conversionMembers _) ha hb
  have hver := (hflds "version").2
  have hbasis := (hflds "valuationBasis").1
  have hpol := (hflds "policy").1
  have hmode := (hflds "mode").1
  have hprof := (hflds "profileHash").1
  have hbase := (hflds "baseAsset").1
  have hquote := (hflds "quoteAsset").1
  have hasOf := (hflds "at").2
  have hearliest := (hflds "earliestAt").2
  have hlat := (hflds "latestAt").2
  have hexpires := (hflds "expiresAt").2
  simp [conversionMembers, TradingFx.numberField, Json.lookup, Json.number?] at hver hasOf
  simp [conversionMembers, TradingFx.numberField, Json.lookup, Json.number?] at hearliest hlat
  simp [conversionMembers, TradingFx.numberField, Json.lookup, Json.number?] at hexpires
  simp [conversionMembers, TradingFx.textField, Json.lookup, Json.text?] at hbasis hpol hmode
  simp [conversionMembers, TradingFx.textField, Json.lookup, Json.text?] at hprof hbase hquote
  have hrate := hlook "rate"
  have hhashes := hlook "receiptHashes"
  simp [conversionMembers, Json.lookup] at hrate hhashes
  simp only [Json.sorted, sortedItems_texts, Json.array.injEq] at hhashes
  rw [List.map_inj_right (fun _ _ h => Json.string.inj h)] at hhashes
  have hnodup : ∀ a b : String,
      (([("numerator", .string a), ("denominator", .string b)] : List (String × Json ℚ)).map
        (·.1)).Nodup := by
    intro a b
    simp
  have hfrac := lookup_sorted (hnodup _ _) (hnodup _ _) hrate
  have hnum := hfrac "numerator"
  have hden := hfrac "denominator"
  simp [Json.lookup, Json.sorted] at hnum hden
  rw [hver, hbasis, hpol, modeText_injective hmode, hprof, hbase, hquote, hasOf, hearliest,
    hlat, hexpires, hnum, hden, hhashes]

end Identity

section References

theorem storeReference_eq {entry : String × ℕ} {receipt : String}
    (h : receiptId sha256 account entry.1 = .ok receipt) :
    storeReference sha256 account id db entry =
      .ok { db with references :=
        (db.references.insert ⟨account.id, id, receipt, entry.2⟩).2 } := by
  rw [storeReference, h]
  rfl

theorem foldlM_storeReference_present {entries : List (String × ℕ)}
    (h : ∀ entry ∈ entries, (∃ receipt, receiptId sha256 account entry.1 = .ok receipt) ∧
      (db.references.find (id, entry.2)).isSome) :
    entries.foldlM (storeReference sha256 account id) db = .ok db := by
  induction entries with
  | nil => rfl
  | cons entry entries ih =>
    obtain ⟨⟨receipt, hrec⟩, hpresent⟩ := h entry List.mem_cons_self
    rw [List.foldlM_cons, storeReference_eq hrec, ok_bind, Keyed.insert_of_find hpresent]
    exact ih (fun entry hentry => h entry (List.mem_cons_of_mem _ hentry))

theorem foldlM_storeReference_new {n : ℕ}
    (hid : ∀ original ∈ originals, receiptId sha256 account original.receiptHash = .ok original.id)
    (hfresh : ∀ reference ∈ db.references.rows, reference.conversionId = id →
      reference.ordinal < n) :
    ∃ references : Keyed (fun row : ReferenceRow => (row.conversionId, row.ordinal)),
      ((originals.map (·.receiptHash)).zipIdx n).foldlM (storeReference sha256 account id) db =
        .ok { db with references } ∧
      references.rows = db.references.rows ++
        (originals.zipIdx n).map (fun entry => ⟨account.id, id, entry.1.id, entry.2⟩) := by
  induction originals generalizing db n with
  | nil => exact ⟨db.references, rfl, by simp⟩
  | cons original originals ih =>
    have hmiss : db.references.find (id, n) = none := by
      rw [Keyed.find_eq_none]
      intro reference href heq
      obtain ⟨hconv, hordinal⟩ := Prod.mk.inj heq
      have := hfresh reference href hconv
      omega
    have hrows : (db.references.insert ⟨account.id, id, original.id, n⟩).2.rows =
        db.references.rows ++ [⟨account.id, id, original.id, n⟩] := Keyed.rows_insert hmiss
    have hnext : ∀ reference ∈ (db.references.insert ⟨account.id, id, original.id, n⟩).2.rows,
        reference.conversionId = id → reference.ordinal < n + 1 := by
      intro reference href hconv
      rw [hrows, List.mem_append, List.mem_singleton] at href
      rcases href with hold | rfl
      · have := hfresh reference hold hconv
        omega
      · exact Nat.lt_succ_self n
    obtain ⟨references, hfold, hrefs⟩ :=
      @ih { db with references := (db.references.insert ⟨account.id, id, original.id, n⟩).2 }
        (n + 1)
        (fun original horig => hid original (List.mem_cons_of_mem _ horig)) hnext
    refine ⟨references, ?_, ?_⟩
    · have hstored : storeReference sha256 account id db (original.receiptHash, n) =
          .ok { db with references := (db.references.insert ⟨account.id, id, original.id, n⟩).2 } :=
        storeReference_eq (hid original List.mem_cons_self)
      rw [List.map_cons, List.zipIdx_cons, List.foldlM_cons, hstored, ok_bind]
      exact hfold
    · rw [hrefs, hrows, List.zipIdx_cons, List.map_cons, List.append_assoc]
      rfl

end References

section Persist

variable {row : ConversionRow}

theorem exists_map_eq {A B : Type} {f : A → B} {as : List A} {bs : List B}
    (h : ∀ b ∈ bs, ∃ a ∈ as, f a = b) :
    ∃ chosen : List A, (∀ a ∈ chosen, a ∈ as) ∧ chosen.map f = bs := by
  induction bs with
  | nil => exact ⟨[], by simp, rfl⟩
  | cons b bs ih =>
    obtain ⟨a, ha, hf⟩ := h b List.mem_cons_self
    obtain ⟨chosen, hchosen, hmap⟩ := ih (fun b hb => h b (List.mem_cons_of_mem _ hb))
    refine ⟨a :: chosen, ?_, by rw [List.map_cons, hf, hmap]⟩
    intro a' ha'
    rcases List.mem_cons.mp ha' with rfl | hrest
    · exact ha
    · exact hchosen a' hrest

structure Chosen (sha256 : String → String) (now : ℤ) (account : FxAccount) (context : FxContext)
    (db : Database) (conversion : FxConversionEvidence) (originals : List ReceiptRow) : Prop where
  nonempty : originals ≠ []
  length : originals.length ≤ 3
  mem : ∀ original ∈ originals, original ∈ db.receipts.rows
  account : ∀ original ∈ originals, ofAccount account context original = true
  hashes : originals.map (·.receiptHash) = conversion.receiptHashes
  derives : ∀ now' ≥ now, deriveFxConversion sha256 now'
    (originals.map (fun original => original.receipt.json)) conversion.baseAsset
    conversion.quoteAsset conversion.asOf context = .ok conversion

theorem exists_chosen (hsound : ∀ row ∈ rows, ReceiptSound sha256 now row)
    (hmem : ∀ row ∈ rows, row ∈ db.receipts.rows)
    (hacc : ∀ row ∈ rows, ofAccount account context row = true)
    (h : deriveFxConversion sha256 now ((rows.map ReceiptRow.receipt).map FxLegReceipt.json)
      baseAsset
      quoteAsset asOf context = .ok conversion) :
    ∃ originals, Chosen sha256 now account context db conversion originals ∧
      conversion.mode = fxMode context.mode ∧ conversion.profileHash = context.profileHash ∧
      conversionDigest sha256 conversion.toFxConversion = .ok conversion.evidenceHash := by
  obtain ⟨-, -, -, selected, hsel⟩ := deriveFxConversion_again h
  have hrows : ∀ row ∈ selected, ∃ original ∈ rows, original.receipt = row := by
    intro row hrow
    obtain ⟨receipt, hrec, heq⟩ := List.mem_map.mp (hsel.mem row hrow)
    obtain ⟨original, horig, rfl⟩ := List.mem_map.mp hrec
    refine ⟨original, horig, ?_⟩
    cases hone : original.receipt
    cases row
    rw [hone] at heq
    exact congrArg FxLegReceipt.mk (Json.object.inj heq)
  obtain ⟨originals, horigs, hmap⟩ := exists_map_eq hrows
  have hlen : originals.length = selected.length := by rw [← hmap, List.length_map]
  refine ⟨originals, ⟨?_, hlen ▸ hsel.length, fun r hr => hmem r (horigs r hr),
    fun r hr => hacc r (horigs r hr), ?_, ?_⟩, hsel.mode, hsel.profileHash,
    hsel.digest⟩
  · intro hnil
    rw [hnil, List.map_nil] at hmap
    exact hsel.nonempty hmap.symm
  · rw [← hsel.hashes, ← hmap, List.map_map]
    exact List.map_congr_left (fun r hr => (hsound r (horigs r hr)).receiptHash)
  · intro now' hle
    rw [← hsel.again now' hle, ← hmap, List.map_map]
    rfl

/-- The tables after the references were stored, before the read-back. -/
structure Persisted (sha256 : String → String) (now : ℤ) (account : FxAccount) (db after : Database)
    (id : String) (conversion : FxConversionEvidence) : Prop where
  sound : Sound sha256 now after
  accounts : after.accounts = db.accounts
  receipts : after.receipts = db.receipts
  others : ∀ row ∈ after.conversions.rows, row ∈ db.conversions.rows ∨ row.payload = conversion
  kept : ∀ row ∈ db.conversions.rows, row ∈ after.conversions.rows
  stored : ∃ row, after.conversions.find id = some row ∧ row.payload = conversion ∧
    SameBinding account row.owner

theorem persisted_present (hinj : Function.Injective sha256) (hsound : Sound sha256 now db)
    (hchosen : Chosen sha256 now account context db conversion originals)
    (hdig : conversionDigest sha256 conversion.toFxConversion = .ok conversion.evidenceHash)
    (hid : conversionId sha256 account conversion.evidenceHash = .ok id)
    (hrow : db.conversions.find id = some row) :
    ∃ after, conversion.receiptHashes.zipIdx.foldlM (storeReference sha256 account id)
        (storeConversion account id conversion db) = .ok after ∧
      Persisted sha256 now account db after id conversion := by
  obtain ⟨hmem, rfl⟩ := Keyed.find_eq_some.mp hrow
  obtain ⟨stored, hstored⟩ := hsound.conversions row hmem
  obtain ⟨hbind, hhash⟩ := conversionId_injective hinj hid hstored.id
  have hpay : row.payload = conversion := by
    have hsame : conversion.evidenceHash = row.payload.evidenceHash := hhash.trans hstored.evidence
    have hconv := conversion_of_digest hinj hstored.digest (hsame ▸ hdig)
    obtain ⟨payload, evidenceHash⟩ := conversion
    cases hp : row.payload
    rw [hp] at hconv hsame
    exact congrArg₂ FxConversionEvidence.mk hconv hsame.symm
  have hdb : storeConversion account row.id conversion db = db := by
    rw [storeConversion, Keyed.insert_of_find]
    exact Option.isSome_of_eq_some hrow
  refine ⟨db, ?_, hsound, rfl, rfl, fun r hr => .inl hr, fun r hr => hr, row, hrow, hpay, hbind⟩
  rw [hdb]
  refine foldlM_storeReference_present ?_
  intro entry hentry
  rw [← hpay, ← hstored.hashes] at hentry
  obtain ⟨original, horig, heq⟩ : ∃ original, (original, entry.2) ∈ stored.zipIdx ∧
      original.receiptHash = entry.1 := by
    rw [List.zipIdx_map] at hentry
    obtain ⟨pair, hpair, hpairEq⟩ := List.mem_map.mp hentry
    rw [← hpairEq]
    exact ⟨pair.1, hpair, rfl⟩
  have hin : original ∈ stored := by
    have hmap := List.mem_map_of_mem (f := Prod.fst) horig
    rwa [List.zipIdx_map_fst] at hmap
  refine ⟨⟨original.id, ?_⟩, ?_⟩
  · have howner := hstored.binding original hin
    rw [← heq, hbind.receiptId, howner.receiptId]
    exact (hsound.receipts original (hstored.mem original hin)).id
  · have href : (⟨row.accountId, row.id, original.id, entry.2⟩ : ReferenceRow) ∈
        referencesTo row.accountId row.id stored :=
      List.mem_map.mpr ⟨(original, entry.2), horig, rfl⟩
    rw [← hstored.references] at href
    exact Option.isSome_of_eq_some
      (Keyed.find_eq_some.mpr ⟨(List.mem_filter.mp href).1, rfl⟩)

theorem Chosen.conversionSound
    (hchosen : Chosen sha256 now account context db row.payload originals)
    (howner : SameBinding account row.owner) (hctx : contextOf row.payload = context)
    (hrecs : after.receipts = db.receipts)
    (hrefs : after.references.rows.filter (fun reference => reference.conversionId = row.id) =
      referencesTo row.accountId row.id originals)
    (hev : row.evidenceHash = row.payload.evidenceHash)
    (hdig : conversionDigest sha256 row.payload.toFxConversion = .ok row.payload.evidenceHash)
    (hid : conversionId sha256 account row.payload.evidenceHash = .ok row.id) :
    ConversionSound sha256 now after row originals where
  nonempty := hchosen.nonempty
  length := hchosen.length
  mem := by
    rw [hrecs]
    exact hchosen.mem
  binding := by
    intro original horig
    have hfirst := (ofAccount_iff.mp (hchosen.account original horig)).1
    exact ⟨howner.id.symm.trans hfirst.id, howner.fingerprint.symm.trans hfirst.fingerprint,
      howner.generation.symm.trans hfirst.generation⟩
  context := by
    intro original horig
    rw [hctx]
    exact (ofAccount_iff.mp (hchosen.account original horig)).2
  references := hrefs
  hashes := hchosen.hashes
  derives := by
    rw [hctx]
    exact hchosen.derives
  evidence := hev
  digest := hdig
  id := by rw [← howner.conversionId, hev, hid]

theorem filter_references {references : List ReferenceRow}
    (h : references = db.references.rows ++ referencesTo account.id id originals) (other : String) :
    references.filter (fun reference => reference.conversionId = other) =
      db.references.rows.filter (fun reference => reference.conversionId = other) ++
        if other = id then referencesTo account.id id originals else [] := by
  rw [h, List.filter_append]
  congr 1
  split_ifs with heq
  · refine List.filter_eq_self.mpr ?_
    intro reference href
    simpa [heq] using (mem_referencesTo href).2
  · refine List.filter_eq_nil_iff.mpr ?_
    intro reference href
    simpa [(mem_referencesTo href).2] using Ne.symm heq

theorem Sound.add (hsound : Sound sha256 now db) (hrecs : after.receipts = db.receipts)
    (hrows : after.conversions.rows = db.conversions.rows ++ [row])
    (hrefs : after.references.rows = db.references.rows ++ referencesTo account.id row.id originals)
    (hnone : db.conversions.find row.id = none)
    (hrow : ∃ originals, ConversionSound sha256 now after row originals)
    : Sound sha256 now after where
  receipts := by
    rw [hrecs]
    exact hsound.receipts
  conversions := by
    intro other hother
    rw [hrows, List.mem_append, List.mem_singleton] at hother
    rcases hother with hold | rfl
    · obtain ⟨stored, hstored⟩ := hsound.conversions other hold
      refine ⟨stored, hstored.mono (le_refl _) (fun _ hr => hrecs ▸ hr) ?_⟩
      rw [filter_references hrefs,
        if_neg (fun heq => Keyed.find_eq_none.mp hnone other hold heq), List.append_nil]
    · exact hrow
  references := by
    have hfound : ∀ r ∈ after.conversions.rows, (after.conversions.find r.id).isSome :=
      fun r hr => Option.isSome_of_eq_some (Keyed.find_eq_some.mpr ⟨hr, rfl⟩)
    intro reference href
    rw [hrefs, List.mem_append] at href
    rcases href with hold | hnew
    · obtain ⟨found, hsome⟩ := Option.isSome_iff_exists.mp (hsound.references reference hold)
      obtain ⟨hmem, hkey⟩ := Keyed.find_eq_some.mp hsome
      rw [← hkey]
      exact hfound found (by rw [hrows]; exact List.mem_append_left _ hmem)
    · rw [(mem_referencesTo hnew).2]
      exact hfound row (by rw [hrows]; exact List.mem_append_right _ List.mem_cons_self)

theorem persisted_new (hsound : Sound sha256 now db)
    (hchosen : Chosen sha256 now account context db conversion originals)
    (hctx : contextOf conversion = context)
    (hfp : ∃ fingerprint generation, account.externalAccountId = some fingerprint ∧
      account.credentialGeneration = some generation)
    (hdig : conversionDigest sha256 conversion.toFxConversion = .ok conversion.evidenceHash)
    (hid : conversionId sha256 account conversion.evidenceHash = .ok id)
    (hnone : db.conversions.find id = none) :
    ∃ after, conversion.receiptHashes.zipIdx.foldlM (storeReference sha256 account id)
        (storeConversion account id conversion db) = .ok after ∧
      Persisted sha256 now account db after id conversion := by
  obtain ⟨fingerprint, generation, hfp, hgen⟩ := hfp
  have hunknown : ∀ reference ∈ db.references.rows, reference.conversionId ≠ id := by
    intro reference href heq
    have hsome := hsound.references reference href
    rw [heq, hnone] at hsome
    cases hsome
  have hreceiptIds : ∀ original ∈ originals,
      receiptId sha256 account original.receiptHash = .ok original.id := by
    intro original horig
    have howner := (ofAccount_iff.mp (hchosen.account original horig)).1
    rw [howner.receiptId]
    exact (hsound.receipts original (hchosen.mem original horig)).id
  let row : ConversionRow := ⟨id, account.id, account.externalAccountId.getD "",
    account.credentialGeneration.getD "", conversion.evidenceHash, conversion⟩
  have howner : SameBinding account row.owner :=
    ⟨rfl, by simp [row, ConversionRow.owner, owner, hfp],
      by simp [row, ConversionRow.owner, owner, hgen]⟩
  have hrows : (storeConversion account id conversion db).conversions.rows =
      db.conversions.rows ++ [row] := Keyed.rows_insert hnone
  obtain ⟨references, hfold, hrefs⟩ :=
    @foldlM_storeReference_new sha256 account (storeConversion account id conversion db) id
      originals 0
      hreceiptIds (fun reference href heq => absurd heq (hunknown reference href))
  rw [hchosen.hashes] at hfold
  have hadded : references.rows = db.references.rows ++ referencesTo account.id id originals :=
    hrefs
  have hempty : db.references.rows.filter (fun reference => reference.conversionId = id) = [] :=
    List.filter_eq_nil_iff.mpr (fun reference h => by simpa using hunknown reference h)
  have hreferenced : references.rows.filter (fun reference => reference.conversionId = id) =
      referencesTo account.id id originals := by
    rw [filter_references hadded, hempty, if_pos rfl, List.nil_append]
  generalize hafter : (⟨(storeConversion account id conversion db).accounts,
    (storeConversion account id conversion db).receipts,
    (storeConversion account id conversion db).conversions, references⟩ : Database) = after at hfold
  have hconversions : after.conversions.rows = db.conversions.rows ++ [row] := by
    rw [← hafter]
    exact hrows
  have hrecs : after.receipts = db.receipts := by
    rw [← hafter]
    rfl
  have hstored : after.references = references := by rw [← hafter]
  have hconv : ConversionSound sha256 now after row originals :=
    Chosen.conversionSound hchosen howner hctx hrecs (by rw [hstored]; exact hreferenced) rfl
      hdig hid
  refine ⟨after, hfold, hsound.add hrecs hconversions (by rw [hstored]; exact hadded) hnone
    ⟨originals, hconv⟩, by rw [← hafter]; rfl, hrecs, ?_, ?_, row, ?_, rfl, howner⟩
  · intro other hother
    rw [hconversions, List.mem_append, List.mem_singleton] at hother
    rcases hother with hold | rfl
    · exact .inl hold
    · exact .inr rfl
  · intro other hother
    rw [hconversions]
    exact List.mem_append_left _ hother
  · refine Keyed.find_eq_some.mpr ⟨?_, rfl⟩
    rw [hconversions]
    exact List.mem_append_right _ List.mem_cons_self

end Persist

end TsxCore.TradingFxRepository
