import TsxCore.CharacterTexts
import TsxCore.Utf8Decoding

/-!
# Backup archives (`backup_replication.ts`)

An archive is a magic number, the members with their lengths, and a terminator. A name is the
list of its characters, an absolute path the list of its segments. What an extraction has done
to the disk when it returns or throws is part of its result; the destination is made by it and
holds nothing else.
-/

namespace TsxCore.BackupArchive

open Outcome Characters

abbrev Bytes := List UInt8

abbrev Name := List Char

abbrev Path := List Name

section Names

def manifestFile : Name := ['m', 'a', 'n', 'i', 'f', 'e', 's', 't', '.', 'j', 's', 'o', 'n']

def configFile : Name := ['c', 'o', 'n', 'f', 'i', 'g', '.', 'j', 's', 'o', 'n']

def databaseFile : Name := ['f', 'o', 'r', 'w', 'a', 'r', 'd', 'e', 'r', '.', 'd', 'b']

def runtimeSettingsFile : Name :=
  ['r', 'u', 'n', 't', 'i', 'm', 'e', '-', 's', 'e', 't', 't', 'i', 'n', 'g', 's', '.', 'j', 's',
    'o', 'n']

/-- The directory of the templates and the separator. -/
def templatesPrefix : Name := ['t', 'e', 'm', 'p', 'l', 'a', 't', 'e', 's', '/']

/-- `/[\\/<>:"|?*\x00-\x1f]/`. -/
def forbidden (c : Char) : Bool :=
  c = '\\' || c = '/' || c = '<' || c = '>' || c = ':' || c = '"' || c = '|' || c = '?' ||
    c = '*' || c.toNat ≤ 0x1f

def isSafeTemplatePathSegment (segment : Name) : Bool :=
  0 < units segment && units segment ≤ 128 && segment ≠ ['.'] && segment ≠ ['.', '.'] &&
    segment = trimmed segment && !segment.any forbidden

def isSupportedBackupArtifactFileName (fileName : Name) : Bool :=
  if fileName = databaseFile ∨ fileName = configFile then true
  else if fileName = runtimeSettingsFile then true
  else if templatesPrefix.isPrefixOf fileName = false then false
  else
    let relative := fileName.drop templatesPrefix.length
    0 < units relative && units relative ≤ 240 &&
      (relative.splitOn '/').all isSafeTemplatePathSegment

def supported (fileName : Name) : Bool :=
  fileName = manifestFile || isSupportedBackupArtifactFileName fileName

/-- One segment of `path.resolve`. -/
def enter (path : Path) (segment : Name) : Path :=
  if segment = [] ∨ segment = ['.'] then path
  else if segment = ['.', '.'] then path.dropLast
  else path ++ [segment]

/-- `path.resolve(root, fileName)`. -/
def resolve (root : Path) (fileName : Name) : Path :=
  (fileName.splitOn '/').foldl enter (if fileName.head? = some '/' then [] else root)

end Names

section Writing

/-- `ARCHIVE_MAGIC`. -/
def archiveMagic : Bytes := [0x54, 0x47, 0x46, 0x41, 0x31, 0x00]

/-- `MAX_ARCHIVE_NAME_BYTES`. -/
def maxArchiveNameBytes : ℕ := 256

/-- `Buffer.from(name, 'utf8')`. -/
def utf8 (name : Name) : Bytes := name.flatMap String.utf8EncodeChar

/-- The bytes of an unsigned number, the most significant one first. -/
def bigEndian : ℕ → ℕ → Bytes
  | 0, _ => []
  | width + 1, value => bigEndian width (value / 256) ++ [UInt8.ofNat (value % 256)]

def readBigEndian (bytes : Bytes) : ℕ := bytes.foldl (fun value b => value * 256 + b.toNat) 0

def archiveMember (member : Name × Bytes) : Outcome Bytes := do
  throwIf (member.2.length < 1 ∨ maxSafeInteger < member.2.length)
    (.error ("Backup file '" ++ .ofList member.1 ++ "' is not a non-empty regular file."))
  return bigEndian 4 (utf8 member.1).length ++ utf8 member.1 ++ bigEndian 8 member.2.length ++
    member.2

def archiveOf (members : List (Name × Bytes)) : Outcome Bytes := do
  return archiveMagic ++ (← members.mapM archiveMember).flatten ++ [0, 0, 0, 0]

def archiveChunks (manifest : Bytes) (files : List (Name × Bytes)) : Outcome Bytes :=
  archiveOf ((manifestFile, manifest) :: files)

end Writing

section Reading

structure ArchiveExtractionState where
  position : ℕ
  extracted : List Name
  extractedBytes : ℕ
  /-- The calls of `mkdir` and the files, in their order. -/
  directories : List Path
  written : List (Path × Bytes)

structure Member where
  fileName : Name
  path : Path
  start : ℕ
  size : ℕ

def invalid (message : String) : Thrown := .error ("Encrypted backup archive " ++ message)

def readExact (archive : Bytes) (length position : ℕ) : Outcome Bytes :=
  let bytes := (archive.drop position).take length
  if bytes.length ≠ length then .error (invalid "is truncated.") else .ok bytes

/-- `bytes.toString('utf8')`. -/
def decodeName (bytes : Bytes) : Name := Utf8.decodeFrom none (bytes.map UInt8.toNat)

def readArchiveMemberName (archive : Bytes) (position : ℕ) : Outcome (Option (Name × ℕ)) := do
  let nameLength := readBigEndian (← readExact archive 4 position)
  if nameLength = 0 then return none
  throwIf (maxArchiveNameBytes < nameLength) (invalid "contains an invalid file name.")
  let bytes ← readExact archive nameLength (position + 4)
  return some (decodeName bytes, position + 4 + nameLength)

def validateArchiveMemberName (fileName : Name) (extracted : List Name) : Outcome Unit :=
  throwIf (supported fileName = false ∨ fileName ∈ extracted)
    (invalid ("contains unexpected file '" ++ .ofList fileName ++ "'."))

def readArchiveMemberSize (archive : Bytes) (position : ℕ) (fileName : Name) : Outcome ℕ := do
  let size := readBigEndian (← readExact archive 8 position)
  throwIf (maxSafeInteger < size ∨ size < 1 ∨ archive.length < position + 8 + size)
    (invalid ("has an invalid size for '" ++ .ofList fileName ++ "'."))
  return size

def archiveDestination (destination : Path) (fileName : Name) : Outcome Path := do
  throwIf (destination.isPrefixOf (resolve destination fileName) = false)
    (invalid ("path escapes destination: " ++ .ofList fileName))
  return resolve destination fileName

/-- What `extractArchiveMember` does before it touches the disk. -/
def readMember (archive : Bytes) (destination : Path) (maxExpandedBytes : ℕ)
    (state : ArchiveExtractionState) : Outcome (Option Member) := do
  match ← readArchiveMemberName archive state.position with
  | none => return none
  | some (fileName, position) =>
    validateArchiveMemberName fileName state.extracted
    let size ← readArchiveMemberSize archive position fileName
    throwIf (maxExpandedBytes < state.extractedBytes + size)
      (invalid "exceeds the configured recovery size limit.")
    let path ← archiveDestination destination fileName
    return some ⟨fileName, path, position + 8, size⟩

/-- A file that the `mkdir` or the exclusive `open` of a path meets. -/
def occupied (written : List (Path × Bytes)) (path : Path) : Bool :=
  written.any (fun file => file.1.isPrefixOf path || path.isPrefixOf file.1)

/-- A recursive `mkdir` finds a file above the directory it makes, or in its place. -/
def occupiedError (written : List (Path × Bytes)) (path : Path) : Thrown :=
  if written.any (fun file => file.1.isPrefixOf path.dropLast.dropLast) then
    ⟨"Error", some "ENOTDIR", "ENOTDIR"⟩
  else ⟨"Error", some "EEXIST", "EEXIST"⟩

def extractArchiveMember (archive : Bytes) (destination : Path) (maxExpandedBytes : ℕ)
    (state : ArchiveExtractionState) : ArchiveExtractionState × Outcome Bool :=
  match readMember archive destination maxExpandedBytes state with
  | .error e => (state, .error e)
  | .ok none => ({ state with position := state.position + 4 }, .ok false)
  | .ok (some member) =>
    let made := { state with directories := state.directories ++ [member.path.dropLast] }
    if occupied made.written member.path then
      (made, .error (occupiedError made.written member.path))
    else ({ made with
      position := member.start + member.size
      extracted := state.extracted ++ [member.fileName]
      extractedBytes := state.extractedBytes + member.size
      written := state.written ++ [(member.path, (archive.drop member.start).take member.size)] },
      .ok true)

def assertArchiveComplete (archive : Bytes) (state : ArchiveExtractionState) : Outcome Unit :=
  throwIf (state.position ≠ archive.length ∨
      ¬ (manifestFile ∈ state.extracted ∧ configFile ∈ state.extracted ∧
        databaseFile ∈ state.extracted))
    (invalid "is incomplete or has trailing data.")

/-- The loop over the members; nothing where the fuel does not suffice. -/
def extractMembers (archive : Bytes) (destination : Path) (maxExpandedBytes : ℕ) :
    ℕ → ArchiveExtractionState → Option (ArchiveExtractionState × Outcome Unit)
  | 0, _ => none
  | fuel + 1, state =>
    match extractArchiveMember archive destination maxExpandedBytes state with
    | (next, .error e) => some (next, .error e)
    | (next, .ok false) => some (next, assertArchiveComplete archive next)
    | (next, .ok true) => extractMembers archive destination maxExpandedBytes fuel next

def extractArchive (fuel : ℕ) (archive : Bytes) (destination : Path) (destinationExists : Bool)
    (maxExpandedBytes : ℕ) : Option (ArchiveExtractionState × Outcome Unit) :=
  let state : ArchiveExtractionState := ⟨0, [], 0, [], []⟩
  match readExact archive archiveMagic.length state.position with
  | .error e => some (state, .error e)
  | .ok magic =>
    let state := { state with position := state.position + magic.length }
    if magic ≠ archiveMagic then
      some (state, .error (.error "Decrypted backup archive has an invalid header."))
    else if destinationExists then some (state, .error ⟨"Error", some "EEXIST", "EEXIST"⟩)
    else extractMembers archive destination maxExpandedBytes fuel state

end Reading

section Fields

variable {archive bytes nameBytes content rest : Bytes} {position length size : ℕ}

theorem length_bigEndian (width value : ℕ) : (bigEndian width value).length = width := by
  induction width generalizing value with
  | zero => rfl
  | succ width ih => rw [bigEndian, List.length_append, ih, List.length_singleton]

theorem readBigEndian_append (b : UInt8) :
    readBigEndian (bytes ++ [b]) = readBigEndian bytes * 256 + b.toNat := by
  rw [readBigEndian, List.foldl_append, List.foldl_cons, List.foldl_nil, readBigEndian]

theorem readBigEndian_bigEndian (width value : ℕ) :
    readBigEndian (bigEndian width value) = value % 256 ^ width := by
  induction width generalizing value with
  | zero => rw [pow_zero, Nat.mod_one]; rfl
  | succ width ih =>
    have hdigit : (UInt8.ofNat (value % 256)).toNat = value % 256 := by
      rw [UInt8.toNat_ofNat']
      omega
    rw [bigEndian, readBigEndian_append, ih, hdigit, pow_succ', Nat.mod_mul]
    ring

theorem bigEndian_readBigEndian (bytes : Bytes) :
    bigEndian bytes.length (readBigEndian bytes) = bytes := by
  induction bytes using List.reverseRecOn with
  | nil => rfl
  | append_singleton bytes b ih =>
    have hb : b.toNat < 256 := b.toNat_lt
    rw [List.length_append, List.length_singleton, bigEndian, readBigEndian_append]
    have hhigh : (readBigEndian bytes * 256 + b.toNat) / 256 = readBigEndian bytes := by omega
    have hlow : (readBigEndian bytes * 256 + b.toNat) % 256 = b.toNat := by omega
    rw [hhigh, hlow, ih, UInt8.ofNat_toNat]

theorem readExact_ok : readExact archive length position = .ok bytes ↔
    bytes.length = length ∧ archive.drop position = bytes ++ archive.drop (position + length) := by
  unfold readExact
  dsimp only
  split_ifs with hshort
  · refine ⟨nofun, ?_⟩
    rintro ⟨hlen, hdrop⟩
    apply absurd _ hshort
    rw [hdrop, ← hlen, List.take_left]
  · rw [not_not] at hshort
    refine ⟨?_, ?_⟩
    · intro h
      obtain rfl := Except.ok.inj h
      refine ⟨hshort, ?_⟩
      rw [← List.drop_drop, List.take_append_drop]
    · rintro ⟨hlen, hdrop⟩
      rw [hdrop, ← hlen, List.take_left]

def field (nameBytes content : Bytes) : Bytes :=
  bigEndian 4 nameBytes.length ++ nameBytes ++ bigEndian 8 content.length ++ content

theorem length_field : (field nameBytes content).length =
    12 + nameBytes.length + content.length := by
  simp only [field, List.length_append, length_bigEndian]
  omega

end Fields

section Paths

variable {fileName other : Name} {destination : Path}

theorem enter_segment {path : Path} {segment : Name} (hempty : segment ≠ [])
    (hdot : segment ≠ ['.']) (hdots : segment ≠ ['.', '.']) :
    enter path segment = path ++ [segment] := by
  rw [enter, if_neg (not_or.mpr ⟨hempty, hdot⟩), if_neg hdots]

theorem foldl_enter {path segments : Path} (h : ∀ segment ∈ segments,
    segment ≠ [] ∧ segment ≠ ['.'] ∧ segment ≠ ['.', '.']) :
    segments.foldl enter path = path ++ segments := by
  induction segments generalizing path with
  | nil => rw [List.foldl_nil, List.append_nil]
  | cons segment segments ih =>
    obtain ⟨hempty, hdot, hdots⟩ := h segment List.mem_cons_self
    rw [List.foldl_cons, enter_segment hempty hdot hdots,
      ih (fun other hother => h other (List.mem_cons_of_mem segment hother)), List.append_assoc,
      List.singleton_append]

theorem safe_segment {segment : Name} (h : isSafeTemplatePathSegment segment = true) :
    segment ≠ [] ∧ segment ≠ ['.'] ∧ segment ≠ ['.', '.'] := by
  simp only [isSafeTemplatePathSegment, Bool.and_eq_true, decide_eq_true_eq] at h
  obtain ⟨⟨⟨⟨⟨hlen, -⟩, hdot⟩, hdots⟩, -⟩, -⟩ := h
  refine ⟨?_, hdot, hdots⟩
  rintro rfl
  exact lt_irrefl 0 hlen

theorem supported_segments (h : supported fileName = true) :
    fileName.head? ≠ some '/' ∧ ∀ segment ∈ fileName.splitOn '/',
      segment ≠ [] ∧ segment ≠ ['.'] ∧ segment ≠ ['.', '.'] := by
  rw [supported, Bool.or_eq_true, decide_eq_true_eq] at h
  obtain rfl | h := h
  · decide
  · unfold isSupportedBackupArtifactFileName at h
    split_ifs at h with hcore hruntime hprefix
    · obtain rfl | rfl := hcore <;> decide
    · subst hruntime
      decide
    · rw [Bool.not_eq_false, List.isPrefixOf_iff_prefix] at hprefix
      obtain ⟨relative, rfl⟩ := hprefix
      dsimp only at h
      rw [List.drop_left, Bool.and_eq_true, List.all_eq_true] at h
      refine ⟨by simp [templatesPrefix], ?_⟩
      have hsplit : (templatesPrefix ++ relative).splitOn '/' =
          ['t', 'e', 'm', 'p', 'l', 'a', 't', 'e', 's'] :: relative.splitOn '/' := by
        have hplain : '/' ∉ ['t', 'e', 'm', 'p', 'l', 'a', 't', 'e', 's'] := by decide
        exact List.splitOn_append_cons_self_of_not_mem hplain relative
      rw [hsplit]
      intro segment hsegment
      obtain rfl | hrest := List.mem_cons.mp hsegment
      · decide
      · exact safe_segment (h.2 segment hrest)

theorem resolve_supported (h : supported fileName = true) :
    resolve destination fileName = destination ++ fileName.splitOn '/' := by
  obtain ⟨hhead, hsegments⟩ := supported_segments h
  rw [resolve, if_neg hhead, foldl_enter hsegments]

end Paths

section Members

variable {archive nameBytes content rest : Bytes} {position maxExpandedBytes : ℕ}
  {destination : Path} {state : ArchiveExtractionState} {member : Member}

theorem drop_append (h : archive.drop position = nameBytes ++ rest) :
    archive.drop (position + nameBytes.length) = rest := by
  rw [← List.drop_drop, h, List.drop_left]

theorem readExact_append (h : archive.drop position = nameBytes ++ rest) :
    readExact archive nameBytes.length position = .ok nameBytes :=
  readExact_ok.mpr ⟨rfl, by rw [drop_append h, h]⟩

/-- A name that the archive may hold after the names that were read. -/
structure Accepted (extracted : List Name) (nameBytes content : Bytes) : Prop where
  named : 0 < nameBytes.length ∧ nameBytes.length ≤ maxArchiveNameBytes
  sized : 0 < content.length ∧ content.length ≤ maxSafeInteger
  known : supported (decodeName nameBytes) = true
  fresh : decodeName nameBytes ∉ extracted

def memberAt (destination : Path) (position : ℕ) (nameBytes content : Bytes) : Member where
  fileName := decodeName nameBytes
  path := resolve destination (decodeName nameBytes)
  start := position + 4 + nameBytes.length + 8
  size := content.length

theorem readMember_none (h : readMember archive destination maxExpandedBytes state = .ok none) :
    archive.drop state.position = [0, 0, 0, 0] ++ archive.drop (state.position + 4) := by
  unfold readMember readArchiveMemberName at h
  simp only [bind_eq_ok] at h
  obtain ⟨named, ⟨bytes, hbytes, hname⟩, h⟩ := h
  obtain ⟨hlen, hdrop⟩ := readExact_ok.mp hbytes
  split_ifs at hname with hzero
  · rw [hdrop]
    congr 1
    rw [← bigEndian_readBigEndian bytes, hzero, hlen]
    rfl
  · simp only [bind_eq_ok, pure_eq_ok_iff] at hname
    obtain ⟨-, -, other, -, rfl⟩ := hname
    simp only [bind_eq_ok, pure_eq_ok_iff] at h
    obtain ⟨_, _, _, _, _, _, _, _, h⟩ := h
    cases h

theorem readMember_of_terminator (h : archive.drop state.position = [0, 0, 0, 0] ++ rest) :
    readMember archive destination maxExpandedBytes state = .ok none := by
  have hread : readExact archive 4 state.position = .ok [0, 0, 0, 0] :=
    @readExact_append archive [0, 0, 0, 0] rest state.position h
  have hzero : readBigEndian [0, 0, 0, 0] = 0 := by decide
  simp only [readMember, readArchiveMemberName, hread, ok_bind, hzero, if_true]
  rfl

theorem readMember_some
    (h : readMember archive destination maxExpandedBytes state = .ok (some member)) :
    ∃ nameBytes content rest, archive.drop state.position = field nameBytes content ++ rest ∧
      Accepted state.extracted nameBytes content ∧
      state.extractedBytes + content.length ≤ maxExpandedBytes ∧
      member = memberAt destination state.position nameBytes content := by
  unfold readMember readArchiveMemberName at h
  simp only [bind_eq_ok] at h
  obtain ⟨named, ⟨bytes, hbytes, hname⟩, h⟩ := h
  obtain ⟨hlen, hdrop⟩ := readExact_ok.mp hbytes
  split_ifs at hname with hzero
  · obtain rfl := pure_eq_ok_iff.mp hname
    cases h
  · simp only [bind_eq_ok, throwIf_eq_ok, pure_eq_ok_iff, not_lt] at hname
    obtain ⟨-, hshort, nameBytes, hnameBytes, rfl⟩ := hname
    obtain ⟨hnameLength, hnameDrop⟩ := readExact_ok.mp hnameBytes
    simp only [bind_eq_ok, pure_eq_ok_iff, validateArchiveMemberName, throwIf_eq_ok,
      readArchiveMemberSize, archiveDestination, not_or, not_lt] at h
    obtain ⟨-, ⟨hknown, hfresh⟩, size,
      ⟨sizeBytes, hsizeBytes, -, ⟨hsafe, hpos, hinside⟩, hsize⟩, -, hexpanded, path,
      ⟨-, -, rfl⟩, hmemb⟩ := h
    obtain ⟨hsizeLength, hsizeDrop⟩ := readExact_ok.mp hsizeBytes
    rw [hsize] at hsafe hpos hinside
    obtain ⟨content, hcontn⟩ : ∃ content,
        content = (archive.drop (state.position + 4 + readBigEndian bytes + 8)).take size :=
      ⟨_, rfl⟩
    obtain ⟨tail, htail⟩ : ∃ tail,
        archive.drop (state.position + 4 + readBigEndian bytes + 8) = content ++ tail :=
      ⟨_, by rw [hcontn]; exact (List.take_append_drop _ _).symm⟩
    have hcontentLength : content.length = size := by
      rw [hcontn, List.length_take, List.length_drop]
      omega
    have hbytesEq : bytes = bigEndian 4 nameBytes.length := by
      rw [hnameLength, ← hlen, bigEndian_readBigEndian]
    have hsizeEq : sizeBytes = bigEndian 8 content.length := by
      rw [hcontentLength, ← hsize, ← hsizeLength, bigEndian_readBigEndian]
    refine ⟨nameBytes, content, tail, ?_, ⟨⟨?_, ?_⟩, ⟨?_, ?_⟩, ?_, hfresh⟩, ?_, ?_⟩
    · rw [hdrop, hnameDrop, hsizeDrop, htail, field, ← hbytesEq, ← hsizeEq]
      simp only [List.append_assoc]
    · omega
    · omega
    · omega
    · omega
    · simpa using hknown
    · omega
    · rw [← Option.some.inj hmemb, memberAt, hcontentLength, hnameLength]

theorem readMember_field (hdrop : archive.drop state.position = field nameBytes content ++ rest)
    (hacpt : Accepted state.extracted nameBytes content)
    (hbud : state.extractedBytes + content.length ≤ maxExpandedBytes) :
    readMember archive destination maxExpandedBytes state =
      .ok (some (memberAt destination state.position nameBytes content)) := by
  obtain ⟨⟨hnonempty, hshort⟩, ⟨hpos, hsafe⟩, hknown, hfresh⟩ := hacpt
  have hbound : maxArchiveNameBytes = 256 := rfl
  have hinteger : maxSafeInteger < 256 ^ 8 := by decide
  have hnameField : archive.drop state.position = bigEndian 4 nameBytes.length ++
      (nameBytes ++ (bigEndian 8 content.length ++ (content ++ rest))) := by
    rw [hdrop, field]
    simp only [List.append_assoc]
  have hname := drop_append hnameField
  have hsize := drop_append hname
  rw [length_bigEndian] at hname hsize
  have hcontn := drop_append hsize
  rw [length_bigEndian] at hcontn
  have hreadLength := readExact_append hnameField
  have hreadSize := readExact_append hsize
  rw [length_bigEndian] at hreadLength hreadSize
  have hinside : state.position + 4 + nameBytes.length + 8 + content.length ≤ archive.length := by
    have hlengths := congrArg List.length hcontn
    rw [List.length_drop, List.length_append] at hlengths
    omega
  have hlen : readBigEndian (bigEndian 4 nameBytes.length) = nameBytes.length := by
    rw [readBigEndian_bigEndian, Nat.mod_eq_of_lt (by omega)]
  have hcontentLength : readBigEndian (bigEndian 8 content.length) = content.length := by
    rw [readBigEndian_bigEndian, Nat.mod_eq_of_lt (by omega)]
  have hpath : destination.isPrefixOf (resolve destination (decodeName nameBytes)) = true := by
    rw [resolve_supported hknown, List.isPrefixOf_iff_prefix]
    exact List.prefix_append _ _
  unfold readMember readArchiveMemberName
  rw [hreadLength]
  simp only [ok_bind]
  rw [hlen, if_neg (by omega), throwIf_of_not (by omega), readExact_append hname]
  simp only [ok_bind, pure, Except.pure]
  rw [validateArchiveMemberName, throwIf_of_not (by simp [hknown, hfresh]), readArchiveMemberSize,
    hreadSize]
  simp only [ok_bind]
  rw [hcontentLength, throwIf_of_not (by omega)]
  simp only [ok_bind, pure, Except.pure]
  rw [throwIf_of_not (by omega), archiveDestination, throwIf_of_not (by simp [hpath])]
  rfl

end Members

section Extraction

variable {archive rest : Bytes} {maxExpandedBytes fuel : ℕ} {destination : Path}
  {members more : List (Bytes × Bytes)} {m : Bytes × Bytes} {state : ArchiveExtractionState}
  {outcome : Outcome Unit}

/-- The fields of members, each given by the bytes of its name and its content. -/
def fields (members : List (Bytes × Bytes)) : Bytes := members.flatMap (fun m => field m.1 m.2)

/-- What an extraction has done when it has read the members. -/
def after (destination : Path) (members : List (Bytes × Bytes)) : ArchiveExtractionState where
  position := archiveMagic.length + (fields members).length
  extracted := members.map (fun m => decodeName m.1)
  extractedBytes := (members.map (fun m => m.2.length)).sum
  directories := members.map (fun m => (resolve destination (decodeName m.1)).dropLast)
  written := members.map (fun m => (resolve destination (decodeName m.1), m.2))

def pathOf (m : Bytes × Bytes) : Path := (decodeName m.1).splitOn '/'

/-- Members that an extraction accepts one after the other. -/
structure Extractable (maxExpandedBytes : ℕ) (members : List (Bytes × Bytes)) : Prop where
  named : ∀ m ∈ members, 0 < m.1.length ∧ m.1.length ≤ maxArchiveNameBytes
  sized : ∀ m ∈ members, 0 < m.2.length ∧ m.2.length ≤ maxSafeInteger
  known : ∀ m ∈ members, supported (decodeName m.1) = true
  apart : members.Pairwise (fun m n => ¬ pathOf m <+: pathOf n ∧ ¬ pathOf n <+: pathOf m)
  budget : (members.map (fun m => m.2.length)).sum ≤ maxExpandedBytes

theorem Extractable.names (h : Extractable maxExpandedBytes members) :
    (members.map (fun m => decodeName m.1)).Nodup := by
  rw [List.nodup_iff_pairwise_ne, List.pairwise_map]
  apply h.apart.imp
  rintro m n ⟨hapart, -⟩ hname
  apply hapart
  rw [pathOf, pathOf, hname]

theorem Extractable.of_append (h : Extractable maxExpandedBytes (members ++ more)) :
    Extractable maxExpandedBytes members := by
  have hbud := h.budget
  rw [List.map_append, List.sum_append] at hbud
  exact ⟨fun n hn => h.named n (List.mem_append_left more hn),
    fun n hn => h.sized n (List.mem_append_left more hn),
    fun n hn => h.known n (List.mem_append_left more hn),
    (List.pairwise_append.mp h.apart).1, by omega⟩

theorem occupied_after (h : ∀ m ∈ members, supported (decodeName m.1) = true)
    (hm : supported (decodeName m.1) = true) :
    occupied (after destination members).written (resolve destination (decodeName m.1)) = false ↔
      ∀ n ∈ members, ¬ pathOf n <+: pathOf m ∧ ¬ pathOf m <+: pathOf n := by
  rw [occupied, List.any_eq_false]
  simp only [after, List.forall_mem_map, Bool.or_eq_true, List.isPrefixOf_iff_prefix, not_or]
  apply forall₂_congr
  intro n hn
  rw [resolve_supported (h n hn), resolve_supported hm, List.prefix_append_right_inj,
    List.prefix_append_right_inj]
  rfl

theorem extractable_append_singleton : Extractable maxExpandedBytes (members ++ [m]) ↔
    Extractable maxExpandedBytes members ∧
      Accepted (after destination members).extracted m.1 m.2 ∧
      (after destination members).extractedBytes + m.2.length ≤ maxExpandedBytes ∧
      occupied (after destination members).written (resolve destination (decodeName m.1)) =
        false := by
  constructor
  · intro h
    have hknown : ∀ n ∈ members, supported (decodeName n.1) = true :=
      fun n hn => h.known n (List.mem_append_left _ hn)
    have hm : m ∈ members ++ [m] := by simp
    have hbud := h.budget
    have hnames := h.names
    have hapart := h.apart
    simp only [List.map_append, List.map_cons, List.map_nil, List.sum_append, List.sum_cons,
      List.sum_nil] at hbud
    rw [List.map_append, List.nodup_append] at hnames
    rw [List.pairwise_append] at hapart
    refine ⟨h.of_append, ⟨h.named m hm, h.sized m hm, h.known m hm, ?_⟩,
      by simp only [after]; omega,
      (occupied_after hknown (h.known m hm)).mpr ?_⟩
    · intro hmem
      exact hnames.2.2 _ hmem _ (by simp) rfl
    · intro n hn
      exact hapart.2.2 n hn m (List.mem_singleton_self m)
  · rintro ⟨h, hm, hbud, hfree⟩
    rw [occupied_after h.known hm.known] at hfree
    have hall {p : Bytes × Bytes → Prop} (hp : ∀ n ∈ members, p n) (hpm : p m) :
        ∀ n ∈ members ++ [m], p n := by
      intro n hn
      obtain hn | hn := List.mem_append.mp hn
      · exact hp n hn
      · rwa [List.mem_singleton.mp hn]
    refine ⟨hall h.named hm.named, hall h.sized hm.sized, hall h.known hm.known, ?_, ?_⟩
    · rw [List.pairwise_append]
      refine ⟨h.apart, List.pairwise_singleton _ _, ?_⟩
      intro n hn k hk
      rw [List.mem_singleton.mp hk]
      exact hfree n hn
    · simp only [after] at hbud
      simpa using hbud

theorem fields_append : fields (members ++ more) = fields members ++ fields more :=
  List.flatMap_append

theorem fields_singleton : fields [m] = field m.1 m.2 := List.flatMap_singleton ..

theorem extractArchiveMember_field (hdrop : archive.drop (after destination members).position =
      field m.1 m.2 ++ rest)
    (hfree : occupied (after destination members).written (resolve destination (decodeName m.1)) =
      false)
    (hread : readMember archive destination maxExpandedBytes (after destination members) =
      .ok (some (memberAt destination (after destination members).position m.1 m.2))) :
    extractArchiveMember archive destination maxExpandedBytes (after destination members) =
      (after destination (members ++ [m]), .ok true) := by
  have hstart : (after destination members).position + 4 + m.1.length + 8 =
      (after destination members).position + (4 + m.1.length + 8) := by omega
  have hcontn : (archive.drop ((after destination members).position + 4 + m.1.length + 8)).take
      m.2.length = m.2 := by
    have hlen : (4 + m.1.length + 8) =
        (bigEndian 4 m.1.length ++ m.1 ++ bigEndian 8 m.2.length).length := by
      simp only [List.length_append, length_bigEndian]
    rw [hstart, ← List.drop_drop, hdrop, field, hlen, List.append_assoc _ m.2 rest,
      List.drop_left, List.take_left]
  rw [extractArchiveMember, hread]
  dsimp only
  rw [if_neg (by rw [← Bool.not_eq_true] at hfree; exact hfree), memberAt, hcontn]
  simp only [after, List.map_append, List.map_cons, List.map_nil, fields_append, fields_singleton,
    List.length_append, length_field, List.sum_append, List.sum_cons, List.sum_nil, Prod.mk.injEq,
    ArchiveExtractionState.mk.injEq, and_true]
  exact ⟨by omega, trivial, by omega⟩

/-- What one call does: it stops at a terminator, reads one more member, or throws. -/
theorem extractArchiveMember_cases (hvalid : Extractable maxExpandedBytes members) :
    (archive.drop (after destination members).position =
        [0, 0, 0, 0] ++ archive.drop ((after destination members).position + 4) ∧
      extractArchiveMember archive destination maxExpandedBytes (after destination members) =
        ({ after destination members with position := (after destination members).position + 4 },
          .ok false)) ∨
    (∃ m rest, archive.drop (after destination members).position = field m.1 m.2 ++ rest ∧
      Extractable maxExpandedBytes (members ++ [m]) ∧
      extractArchiveMember archive destination maxExpandedBytes (after destination members) =
        (after destination (members ++ [m]), .ok true)) ∨
    ∃ e made,
      extractArchiveMember archive destination maxExpandedBytes (after destination members) =
        ({ after destination members with
            directories := (after destination members).directories ++ made }, .error e) ∧
      ∀ path ∈ made, destination <+: path := by
  obtain ⟨e, hread⟩ | hread | ⟨member, hread⟩ :
      (∃ e, readMember archive destination maxExpandedBytes (after destination members) =
        .error e) ∨
      readMember archive destination maxExpandedBytes (after destination members) = .ok none ∨
      ∃ member, readMember archive destination maxExpandedBytes (after destination members) =
        .ok (some member) := by
    rcases readMember archive destination maxExpandedBytes (after destination members) with
      e | _ | member
    · exact .inl ⟨e, rfl⟩
    · exact .inr (.inl rfl)
    · exact .inr (.inr ⟨member, rfl⟩)
  · refine .inr (.inr ⟨e, [], ?_, nofun⟩)
    rw [extractArchiveMember, hread, List.append_nil]
  · refine .inl ⟨readMember_none hread, ?_⟩
    rw [extractArchiveMember, hread]
  · obtain ⟨nameBytes, content, rest, hdrop, hacpt, hbud, rfl⟩ := readMember_some hread
    by_cases hfree : occupied (after destination members).written
        (resolve destination (decodeName nameBytes)) = false
    · exact .inr (.inl ⟨(nameBytes, content), rest, hdrop,
        extractable_append_singleton.mpr ⟨hvalid, hacpt, hbud, hfree⟩,
        extractArchiveMember_field hdrop hfree hread⟩)
    · refine .inr (.inr ⟨occupiedError (after destination members).written
          (resolve destination (decodeName nameBytes)),
        [(resolve destination (decodeName nameBytes)).dropLast], ?_, ?_⟩)
      · rw [Bool.not_eq_false] at hfree
        rw [extractArchiveMember, hread]
        dsimp only
        rw [if_pos]
        · rfl
        · exact hfree
      · simp only [List.mem_singleton, forall_eq]
        rw [resolve_supported hacpt.known,
          List.dropLast_append_of_ne_nil (List.splitOn_ne_nil _ _)]
        exact List.prefix_append _ _

/-- The files without which an artifact cannot be restored. -/
def Complete (names : List Name) : Prop :=
  manifestFile ∈ names ∧ configFile ∈ names ∧ databaseFile ∈ names

/-- What an extraction has done when it has read the members and the terminator. -/
def finished (destination : Path) (members : List (Bytes × Bytes)) : ArchiveExtractionState :=
  { after destination members with position := (after destination members).position + 4 }

theorem position_append_singleton : (after destination (members ++ [m])).position =
    (after destination members).position + (field m.1 m.2).length := by
  simp only [after, fields_append, fields_singleton, List.length_append, Nat.add_assoc]

theorem drop_after_append_singleton
    (h : archive.drop (after destination members).position = field m.1 m.2 ++ rest) :
    archive.drop (after destination (members ++ [m])).position = rest := by
  rw [position_append_singleton, drop_append h]

theorem extractMembers_sound (hvalid : Extractable maxExpandedBytes members)
    (hrun : extractMembers archive destination maxExpandedBytes fuel (after destination members) =
      some (state, .ok ())) :
    ∃ more, archive.drop (after destination members).position = fields more ++ [0, 0, 0, 0] ∧
      Extractable maxExpandedBytes (members ++ more) ∧
      Complete (after destination (members ++ more)).extracted ∧
      state = finished destination (members ++ more) := by
  induction fuel generalizing members with
  | zero => cases hrun
  | succ fuel ih =>
    rw [extractMembers] at hrun
    obtain ⟨hdrop, hcall⟩ | ⟨m, rest, hdrop, hnext, hcall⟩ | ⟨e, made, hcall, -⟩ :=
      @extractArchiveMember_cases archive maxExpandedBytes destination members hvalid
    · rw [hcall] at hrun
      simp only [Option.some.injEq, Prod.mk.injEq, assertArchiveComplete, throwIf_eq_ok, not_or,
        not_not] at hrun
      obtain ⟨rfl, hend, hcomp⟩ := hrun
      refine ⟨[], ?_, by rwa [List.append_nil], by rwa [List.append_nil], by
        rw [List.append_nil, finished]⟩
      rw [hdrop, hend, List.drop_length, List.append_nil]
      rfl
    · rw [hcall] at hrun
      obtain ⟨more, hmore, hall, hcomp, rfl⟩ := ih hnext hrun
      rw [List.append_assoc, List.singleton_append] at hall hcomp
      refine ⟨m :: more, ?_, hall, hcomp, by rw [List.append_assoc, List.singleton_append]⟩
      rw [drop_after_append_singleton hdrop] at hmore
      rw [hdrop, hmore, ← List.append_assoc]
      rfl
    · rw [hcall] at hrun
      cases hrun

theorem extractMembers_complete
    (hdrop : archive.drop (after destination members).position = fields more ++ [0, 0, 0, 0])
    (hvalid : Extractable maxExpandedBytes (members ++ more))
    (hcomp : Complete (after destination (members ++ more)).extracted)
    (hfuel : more.length < fuel) :
    extractMembers archive destination maxExpandedBytes fuel (after destination members) =
      some (finished destination (members ++ more), .ok ()) := by
  induction more generalizing fuel members with
  | nil =>
    obtain ⟨fuel, rfl⟩ := Nat.exists_eq_succ_of_ne_zero (Nat.ne_of_gt hfuel)
    rw [List.append_nil] at hcomp ⊢
    rw [extractMembers, extractArchiveMember, readMember_of_terminator hdrop]
    dsimp only
    rw [assertArchiveComplete, throwIf_of_not]
    · rfl
    · have hlen := congrArg List.length hdrop
      rw [List.length_drop] at hlen
      simp only [fields, List.flatMap_nil, List.nil_append, List.length_cons, List.length_nil]
        at hlen
      rw [not_or, not_not, not_not]
      exact ⟨by dsimp only; omega, hcomp⟩
  | cons m more ih =>
    obtain ⟨fuel, rfl⟩ := Nat.exists_eq_succ_of_ne_zero (Nat.ne_of_gt (Nat.zero_lt_of_lt hfuel))
    have hsplit : members ++ m :: more = (members ++ [m]) ++ more := by
      rw [List.append_assoc, List.singleton_append]
    have hfield : archive.drop (after destination members).position =
        field m.1 m.2 ++ (fields more ++ [0, 0, 0, 0]) := by
      rw [hdrop, ← List.append_assoc]
      rfl
    rw [hsplit] at hvalid hcomp ⊢
    obtain ⟨-, hacpt, hbud, hfree⟩ :=
      (@extractable_append_singleton maxExpandedBytes destination members m).mp hvalid.of_append
    have hread := @readMember_field archive m.1 m.2 (fields more ++ [0, 0, 0, 0]) maxExpandedBytes
      destination (after destination members) hfield hacpt hbud
    rw [extractMembers, extractArchiveMember_field hfield hfree hread]
    exact ih (drop_after_append_singleton hfield) hvalid hcomp (by
      rw [List.length_cons] at hfuel
      omega)

theorem extractMembers_terminates (hvalid : Extractable maxExpandedBytes members)
    (hinside : (after destination members).position ≤ archive.length)
    (hfuel : archive.length < (after destination members).position + fuel) :
    ∃ result, ∀ extra, extractMembers archive destination maxExpandedBytes (fuel + extra)
      (after destination members) = some result := by
  induction fuel generalizing members with
  | zero => omega
  | succ fuel ih =>
    simp only [Nat.add_right_comm fuel 1, extractMembers]
    obtain ⟨-, hcall⟩ | ⟨m, rest, hdrop, hnext, hcall⟩ | ⟨e, made, hcall, -⟩ :=
      @extractArchiveMember_cases archive maxExpandedBytes destination members hvalid
    · rw [hcall]
      exact ⟨_, fun _ => rfl⟩
    · rw [hcall]
      have hposn := @position_append_singleton destination members m
      have hlen := congrArg List.length hdrop
      rw [List.length_drop, List.length_append] at hlen
      have hpos : 0 < (field m.1 m.2).length := by
        rw [length_field]
        omega
      exact ih hnext (by omega) (by omega)
    · rw [hcall]
      exact ⟨_, fun _ => rfl⟩

/-- What an extraction may have done to the disk, whatever it has read. -/
structure Contained (destination : Path) (maxExpandedBytes : ℕ) (state : ArchiveExtractionState) :
    Prop where
  inside : ∀ file ∈ state.written, ∃ segments, file.1 = destination ++ segments ∧ segments ≠ [] ∧
    ∀ segment ∈ segments, segment ≠ [] ∧ segment ≠ ['.'] ∧ segment ≠ ['.', '.']
  made : ∀ path ∈ state.directories, destination <+: path
  once : (state.written.map Prod.fst).Nodup
  bounded : (state.written.map (fun file => file.2.length)).sum ≤ maxExpandedBytes

theorem contained_after (hvalid : Extractable maxExpandedBytes members) :
    Contained destination maxExpandedBytes (after destination members) := by
  refine ⟨?_, ?_, ?_, ?_⟩
  · simp only [after, List.forall_mem_map]
    intro m hm
    obtain ⟨-, hsegments⟩ := supported_segments (hvalid.known m hm)
    exact ⟨_, resolve_supported (hvalid.known m hm), List.splitOn_ne_nil _ _, hsegments⟩
  · simp only [after, List.forall_mem_map]
    intro m hm
    rw [resolve_supported (hvalid.known m hm),
      List.dropLast_append_of_ne_nil (List.splitOn_ne_nil _ _)]
    exact List.prefix_append _ _
  · rw [after, List.map_map, List.nodup_iff_pairwise_ne, List.pairwise_map]
    apply hvalid.apart.imp_of_mem
    rintro m n hm hn ⟨hapart, -⟩ hpath
    simp only [Function.comp_apply] at hpath
    rw [resolve_supported (hvalid.known m hm), resolve_supported (hvalid.known n hn),
      List.append_cancel_left_eq] at hpath
    apply hapart
    rw [pathOf, pathOf, hpath]
  · rw [after, List.map_map]
    exact hvalid.budget

theorem extractMembers_contained (hvalid : Extractable maxExpandedBytes members)
    (hrun : extractMembers archive destination maxExpandedBytes fuel (after destination members) =
      some (state, outcome)) : Contained destination maxExpandedBytes state := by
  induction fuel generalizing members with
  | zero => cases hrun
  | succ fuel ih =>
    obtain ⟨hinside, hmade, honce, hbounded⟩ :=
      @contained_after maxExpandedBytes destination members hvalid
    rw [extractMembers] at hrun
    obtain ⟨-, hcall⟩ | ⟨m, rest, -, hnext, hcall⟩ | ⟨e, made, hcall, hnew⟩ :=
      @extractArchiveMember_cases archive maxExpandedBytes destination members hvalid
    · rw [hcall] at hrun
      simp only [Option.some.injEq, Prod.mk.injEq] at hrun
      obtain ⟨rfl, -⟩ := hrun
      exact ⟨hinside, hmade, honce, hbounded⟩
    · rw [hcall] at hrun
      exact ih hnext hrun
    · rw [hcall] at hrun
      simp only [Option.some.injEq, Prod.mk.injEq] at hrun
      obtain ⟨rfl, -⟩ := hrun
      refine ⟨hinside, ?_, honce, hbounded⟩
      intro path hpath
      exact (List.mem_append.mp hpath).elim (hmade path) (hnew path)

end Extraction

section RoundTrip

variable {archive manifest : Bytes} {maxExpandedBytes fuel : ℕ} {destination : Path}
  {members : List (Bytes × Bytes)} {files : List (Name × Bytes)} {state : ArchiveExtractionState}
  {destinationExists : Bool} {outcome : Outcome Unit} {name : Name}

theorem decodeName_utf8 (name : Name) : decodeName (utf8 name) = name := by
  have hencode : (utf8 name).map UInt8.toNat = name.flatMap Utf8.encode := by
    rw [utf8, List.map_flatMap]
    rfl
  rw [decodeName, hencode, Utf8.decodeFrom_flatMap_encode]

/-- Files under their names, each name given by its bytes. -/
def encoded (files : List (Name × Bytes)) : List (Bytes × Bytes) :=
  files.map (fun f => (utf8 f.1, f.2))

/-- The files of an artifact directory: no file stands where a directory of another one does. -/
structure Artifact (files : List (Name × Bytes)) : Prop where
  known : ∀ f ∈ files, supported f.1 = true
  short : ∀ f ∈ files, (utf8 f.1).length ≤ maxArchiveNameBytes
  sized : ∀ f ∈ files, 0 < f.2.length ∧ f.2.length ≤ maxSafeInteger
  tree : files.Pairwise (fun f g =>
    ¬ f.1.splitOn '/' <+: g.1.splitOn '/' ∧ ¬ g.1.splitOn '/' <+: f.1.splitOn '/')
  core : Complete (files.map Prod.fst)

theorem archiveOf_encoded (h : ∀ f ∈ files, 0 < f.2.length ∧ f.2.length ≤ maxSafeInteger) :
    archiveOf files = .ok (archiveMagic ++ fields (encoded files) ++ [0, 0, 0, 0]) := by
  have hmapM : files.mapM archiveMember =
      .ok (files.map (fun f => field (utf8 f.1) f.2)) := by
    rw [mapM_eq_ok, List.forall₂_map_right_iff, List.forall₂_same]
    intro f hf
    obtain ⟨hpos, hsafe⟩ := h f hf
    rw [archiveMember, throwIf_of_not (by omega)]
    rfl
  rw [archiveOf, hmapM]
  simp only [fields, encoded, List.flatMap_def, List.map_map]
  rfl

theorem utf8_positive (h : supported name = true) : 0 < (utf8 name).length := by
  obtain ⟨-, hsegments⟩ := supported_segments h
  cases name with
  | nil => exact absurd rfl (hsegments [] (by decide)).1
  | cons c name =>
    rw [utf8, List.flatMap_cons, List.length_append, String.length_utf8EncodeChar]
    have hsize := c.utf8Size_pos
    omega

theorem Artifact.extractable (h : Artifact files)
    (hbud : (files.map (fun f => f.2.length)).sum ≤ maxExpandedBytes) :
    Extractable maxExpandedBytes (encoded files) := by
  refine ⟨?_, ?_, ?_, ?_, ?_⟩
  · simp only [encoded, List.forall_mem_map]
    exact fun f hf => ⟨utf8_positive (h.known f hf), h.short f hf⟩
  · simp only [encoded, List.forall_mem_map]
    exact h.sized
  · simp only [encoded, List.forall_mem_map, decodeName_utf8]
    exact h.known
  · rw [encoded, List.pairwise_map]
    simp only [pathOf, decodeName_utf8]
    exact h.tree
  · rw [encoded, List.map_map]
    exact hbud

theorem extractArchive_of_magic (rest : Bytes) :
    extractArchive fuel (archiveMagic ++ rest) destination false maxExpandedBytes =
      extractMembers (archiveMagic ++ rest) destination maxExpandedBytes fuel
        (after destination []) := by
  have hread : readExact (archiveMagic ++ rest) archiveMagic.length 0 = .ok archiveMagic :=
    @readExact_append (archiveMagic ++ rest) archiveMagic rest 0 rfl
  rw [extractArchive, hread]
  rfl

/-- An extraction ends before the members, or goes through them behind the magic number. -/
theorem extractArchive_cases :
    (∃ e position, ∀ fuel, extractArchive fuel archive destination destinationExists
      maxExpandedBytes = some (⟨position, [], 0, [], []⟩, .error e)) ∨
    archiveMagic <+: archive ∧ ∀ fuel, extractArchive fuel archive destination destinationExists
      maxExpandedBytes =
        extractMembers archive destination maxExpandedBytes fuel (after destination []) := by
  rcases hread : readExact archive archiveMagic.length 0 with e | magic
  · refine .inl ⟨e, 0, fun fuel => ?_⟩
    rw [extractArchive, hread]
  · obtain ⟨hlen, hdrop⟩ := readExact_ok.mp hread
    by_cases hmagic : magic = archiveMagic
    · subst hmagic
      rw [List.drop_zero] at hdrop
      cases destinationExists with
      | true =>
        refine .inl ⟨⟨"Error", some "EEXIST", "EEXIST"⟩, archiveMagic.length, fun fuel => ?_⟩
        rw [extractArchive, hread]
        rfl
      | false =>
        refine .inr ⟨⟨_, hdrop.symm⟩, fun fuel => ?_⟩
        rw [hdrop]
        exact extractArchive_of_magic _
    · refine .inl ⟨.error "Decrypted backup archive has an invalid header.", magic.length,
        fun fuel => ?_⟩
      rw [extractArchive, hread]
      dsimp only
      rw [if_pos hmagic, Nat.zero_add]

theorem extractable_nil : Extractable maxExpandedBytes [] :=
  ⟨nofun, nofun, nofun, .nil, Nat.zero_le _⟩

theorem drop_after_nil (rest : Bytes) :
    (archiveMagic ++ rest).drop (after destination []).position = rest := List.drop_left

theorem extractArchive_ok (h : extractArchive fuel archive destination destinationExists
      maxExpandedBytes = some (state, .ok ())) :
    ∃ members, archive = archiveMagic ++ fields members ++ [0, 0, 0, 0] ∧
      Extractable maxExpandedBytes members ∧
      Complete (members.map (fun m => decodeName m.1)) ∧
      state = finished destination members := by
  obtain ⟨e, position, hfail⟩ | ⟨⟨rest, rfl⟩, hrun⟩ :=
    @extractArchive_cases archive maxExpandedBytes destination destinationExists
  · rw [hfail] at h
    cases h
  · rw [hrun] at h
    obtain ⟨members, hdrop, hvalid, hcomp, rfl⟩ := extractMembers_sound extractable_nil h
    rw [drop_after_nil] at hdrop
    exact ⟨members, by rw [hdrop, List.append_assoc], hvalid, hcomp, rfl⟩

theorem extractArchive_artifact (hartifact : Artifact files)
    (hbud : (files.map (fun f => f.2.length)).sum ≤ maxExpandedBytes)
    (harchive : archive = archiveMagic ++ fields (encoded files) ++ [0, 0, 0, 0])
    (hfuel : archive.length < fuel) :
    extractArchive fuel archive destination false maxExpandedBytes =
      some (finished destination (encoded files), .ok ()) := by
  have hmems {members : List (Bytes × Bytes)} :
      members.length ≤ (fields members).length := by
    induction members with
    | nil => exact le_refl 0
    | cons m members ih =>
      have hsplit : fields (m :: members) = field m.1 m.2 ++ fields members := rfl
      rw [hsplit, List.length_cons, List.length_append, length_field]
      omega
  have hlen := congrArg List.length harchive
  simp only [List.length_append] at hlen
  rw [harchive, List.append_assoc, extractArchive_of_magic]
  apply extractMembers_complete (drop_after_nil _) (hartifact.extractable hbud)
  · simp only [List.nil_append, after, List.map_map, Function.comp_def, decodeName_utf8]
    exact hartifact.core
  · exact lt_of_le_of_lt (@hmems (encoded files)) (by omega)

theorem written_finished (h : ∀ m ∈ members, supported (decodeName m.1) = true) :
    (finished destination members).written =
      members.map (fun m => (destination ++ (decodeName m.1).splitOn '/', m.2)) := by
  simp only [finished, after, List.map_inj_left, Prod.mk.injEq, and_true]
  exact fun m hm => resolve_supported (h m hm)

theorem archiveOf_decoded (hvalid : Extractable maxExpandedBytes members)
    (hutf8 : ∀ m ∈ members, utf8 (decodeName m.1) = m.1) :
    archiveOf (members.map (fun m => (decodeName m.1, m.2))) =
      .ok (archiveMagic ++ fields members ++ [0, 0, 0, 0]) := by
  rw [archiveOf_encoded]
  · have hmems : encoded (members.map (fun m => (decodeName m.1, m.2))) = members := by
      rw [encoded, List.map_map]
      refine (List.map_congr_left ?_).trans members.map_id
      intro m hm
      rw [Function.comp_apply, hutf8 m hm, id]
    rw [hmems]
  · simp only [List.forall_mem_map]
    exact hvalid.sized

/-- An artifact comes back from its archive as it was. Any byte string is read to an end inside
the destination, and with success only if it is an archive, which its files give again when the
bytes of their names are UTF-8. -/
theorem archive_roundTrip (destination : Path) (maxExpandedBytes : ℕ) :
    (∀ manifest files, Artifact ((manifestFile, manifest) :: files) →
      (((manifestFile, manifest) :: files).map (fun f => f.2.length)).sum ≤ maxExpandedBytes →
      ∃ archive state, archiveChunks manifest files = .ok archive ∧
        (∀ fuel > archive.length, extractArchive fuel archive destination false maxExpandedBytes =
          some (state, .ok ())) ∧
        state.extracted = manifestFile :: files.map Prod.fst ∧
        state.written = ((manifestFile, manifest) :: files).map
          (fun f => (destination ++ f.1.splitOn '/', f.2))) ∧
    ∀ archive destinationExists, ∃ state outcome,
      (∀ fuel > archive.length, extractArchive fuel archive destination destinationExists
        maxExpandedBytes = some (state, outcome)) ∧
      Contained destination maxExpandedBytes state ∧
      (outcome = .ok () → ∃ members,
        archive = archiveMagic ++ fields members ++ [0, 0, 0, 0] ∧
        Extractable maxExpandedBytes members ∧
        Complete (members.map (fun m => decodeName m.1)) ∧
        state.extracted = members.map (fun m => decodeName m.1) ∧
        state.extracted.Nodup ∧
        state.written =
          members.map (fun m => (destination ++ (decodeName m.1).splitOn '/', m.2)) ∧
        ((∀ m ∈ members, utf8 (decodeName m.1) = m.1) →
          archiveOf (members.map (fun m => (decodeName m.1, m.2))) = .ok archive)) := by
  refine ⟨?_, ?_⟩
  · intro manifest files hartifact hbud
    have harchive := archiveOf_encoded hartifact.sized
    refine ⟨_, finished destination (encoded ((manifestFile, manifest) :: files)), harchive,
      fun fuel hfuel => extractArchive_artifact hartifact hbud rfl hfuel, ?_, ?_⟩
    · simp only [finished, after, encoded, List.map_cons, List.map_map, Function.comp_def,
        decodeName_utf8]
    · rw [written_finished (hartifact.extractable hbud).known, encoded, List.map_map]
      simp only [Function.comp_def, decodeName_utf8]
  · intro archive destinationExists
    obtain ⟨e, position, hfail⟩ | ⟨⟨rest, rfl⟩, hrun⟩ :=
      @extractArchive_cases archive maxExpandedBytes destination destinationExists
    · exact ⟨_, _, fun fuel _ => hfail fuel, ⟨nofun, nofun, .nil, Nat.zero_le _⟩, nofun⟩
    · obtain ⟨⟨state, outcome⟩, hres⟩ := @extractMembers_terminates
        (archiveMagic ++ rest) maxExpandedBytes ((archiveMagic ++ rest).length + 1) destination []
        extractable_nil (by simp [after, fields]) (by omega)
      have hall : ∀ fuel > (archiveMagic ++ rest).length, extractArchive fuel (archiveMagic ++ rest)
          destination destinationExists maxExpandedBytes = some (state, outcome) := by
        intro fuel hfuel
        obtain ⟨extra, rfl⟩ := Nat.exists_eq_add_of_le hfuel
        rw [hrun]
        exact hres extra
      have hcontd := extractMembers_contained extractable_nil (hres 0)
      refine ⟨state, outcome, hall, hcontd, ?_⟩
      rintro rfl
      obtain ⟨members, harchive, hvalid, hcomp, rfl⟩ :=
        extractArchive_ok (hall _ (Nat.lt_succ_self _))
      refine ⟨members, harchive, hvalid, hcomp, rfl, hvalid.names,
        written_finished hvalid.known, fun hutf8 => ?_⟩
      rw [archiveOf_decoded hvalid hutf8, harchive]

def restored : Path := [['r', 'e', 's', 't', 'o', 'r', 'e', 'd']]

/-- Three files in one directory, archived and read back into another. -/
theorem archive_roundTrip_core : ∃ archive state,
    archiveChunks [1] [(configFile, [2]), (databaseFile, [3, 4])] = .ok archive ∧
      (∀ fuel > archive.length, extractArchive fuel archive restored false 4 =
        some (state, .ok ())) ∧
      state.written = [(restored ++ [manifestFile], [1]), (restored ++ [configFile], [2]),
        (restored ++ [databaseFile], [3, 4])] ∧
      Contained restored 4 state ∧
      ∃ members, archive = archiveMagic ++ fields members ++ [0, 0, 0, 0] ∧
        Complete (members.map (fun m => decodeName m.1)) := by
  have hartifact : Artifact [(manifestFile, [1]), (configFile, [2]), (databaseFile, [3, 4])] :=
    ⟨by decide, by decide, by decide, by decide, by unfold Complete; decide⟩
  obtain ⟨archive, state, hchunks, hrun, -, hwritten⟩ :=
    (archive_roundTrip restored 4).1 [1] [(configFile, [2]), (databaseFile, [3, 4])] hartifact
      (by decide)
  obtain ⟨read, outcome, hread, hcontd, hsound⟩ := (archive_roundTrip restored 4).2 archive false
  have hboth := (hrun _ (Nat.lt_succ_self _)).symm.trans (hread _ (Nat.lt_succ_self _))
  obtain ⟨rfl, rfl⟩ := Prod.mk.inj (Option.some.inj hboth)
  obtain ⟨members, harchive, -, hcomp, -⟩ := hsound rfl
  exact ⟨archive, state, hchunks, hrun, hwritten, hcontd, members, harchive, hcomp⟩

/-- A byte that is no UTF-8 is read as the replacement character, which has other bytes. -/
theorem name_not_utf8 :
    let members := [(utf8 manifestFile, [1]), (utf8 configFile, [1]), (utf8 databaseFile, [1]),
      (utf8 templatesPrefix ++ [0xff], [1])]
    let archive := archiveMagic ++ fields members ++ [0, 0, 0, 0]
    ∃ state, extractArchive (archive.length + 1) archive [] false 4 = some (state, .ok ()) ∧
      archiveOf (state.extracted.zip (state.written.map Prod.snd)) ≠ .ok archive := by
  intro members archive
  have hvalid : Extractable 4 members :=
    ⟨by decide, by decide, by decide +kernel, by decide +kernel, by decide⟩
  have hcomp : Complete (after [] members).extracted := by
    unfold Complete
    decide +kernel
  refine ⟨finished [] members, ?_, by decide +kernel⟩
  have hsplit : archive = archiveMagic ++ (fields members ++ [0, 0, 0, 0]) := by decide
  rw [hsplit, extractArchive_of_magic]
  exact extractMembers_complete (drop_after_nil _) hvalid hcomp (by decide)

end RoundTrip

end TsxCore.BackupArchive
