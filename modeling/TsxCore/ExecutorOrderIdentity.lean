import Mathlib.Data.List.ReduceOption
import TsxCore.Json
import TsxCore.JsRuntime
import TsxCore.OutcomeErrors

/-!
# Batch acknowledgements (`order_identity.py`, `provider_order_identity.py`)

A response is a list of parsed values over a type of numbers. `Python` holds what the code asks
of a number and the `str` of a value that is not a string. A `dict` is the list of its items.
`normalize` returns nothing where the original raises an `ExchangeContractError`.
-/

namespace TsxCore.Executor.OrderIdentity

open Outcome

variable {N R : Type}

section Language

structure Python (N : Type) where
  truthy : N → Bool
  equal : N → N → Bool
  /-- `True` is `1` and `False` is `0`. -/
  ofBool : Bool → N
  text : Json N → String

abbrev Dict (N : Type) := List (String × Json N)

def truthy (p : Python N) : Json N → Bool
  | .null => false
  | .bool value => value
  | .number value => p.truthy value
  | .string value => value ≠ ""
  | .array items => !items.isEmpty
  | .object members => !members.isEmpty

mutual

/-- `left == right`. -/
def equal (p : Python N) : Json N → Json N → Bool
  | .null, .null => true
  | .bool left, .bool right => left = right
  | .bool left, .number right => p.equal (p.ofBool left) right
  | .number left, .bool right => p.equal left (p.ofBool right)
  | .number left, .number right => p.equal left right
  | .string left, .string right => left = right
  | .array left, .array right => equalItems p left right
  | .object left, .object right => left.length = right.length && equalMembers p left right
  | _, _ => false

def equalItems (p : Python N) : List (Json N) → List (Json N) → Bool
  | [], [] => true
  | left :: lefts, right :: rights => equal p left right && equalItems p lefts rights
  | _, _ => false

def equalMembers (p : Python N) : List (String × Json N) → List (String × Json N) → Bool
  | [], _ => true
  | (key, value) :: rest, right =>
    (match Json.lookup key right with
      | some other => equal p value other
      | none => false) && equalMembers p rest right

end

/-- `str(value)`. -/
def str (p : Python N) : Json N → String
  | .string value => value
  | value => p.text value

/-- `members.get(key)`. -/
def get (key : String) (members : Dict N) : Json N := (Json.lookup key members).getD .null

/-- `left or right`. -/
def pyOr (p : Python N) (left right : Json N) : Json N := if truthy p left then left else right

/-- `{**members, key: value}`. -/
def set {V : Type} (key : String) (value : V) (members : List (String × V)) :
    List (String × V) :=
  if members.any (·.1 = key)
  then members.map (fun member => if member.1 = key then (key, value) else member)
  else members ++ [(key, value)]

/-- `character.isspace()`. -/
def isspace (c : Char) : Bool :=
  (9 ≤ c.toNat && c.toNat ≤ 13) || (28 ≤ c.toNat && c.toNat ≤ 32) || c.toNat == 0x85 ||
    c.toNat == 0xa0 || c.toNat == 0x1680 || (0x2000 ≤ c.toNat && c.toNat ≤ 0x200a) ||
    c.toNat == 0x2028 || c.toNat == 0x2029 || c.toNat == 0x202f || c.toNat == 0x205f ||
    c.toNat == 0x3000

def contractError (message : String) : Thrown := ⟨"ExchangeContractError", none, message⟩

def keyError (key : String) : Thrown := ⟨"KeyError", none, key⟩

end Language

section Code

structure OrderSpec (N : Type) where
  symbol : Json N
  params : Dict N

def orderIdentifier (value : Json N) (label : String) : Outcome String :=
  match value with
  | .string text => do
    throwIf (text.toList.all isspace = true ∨ 256 < text.toList.length ∨
        text.toList.any (fun c => c.toNat < 32) = true)
      (contractError ("CCXT order omitted a valid " ++ label ++ " identifier."))
    return text
  | _ => .error (contractError ("CCXT order omitted a valid " ++ label ++ " identifier."))

/-- `order.get("clientOrderId") or order.get("client_order_id")`. -/
def remoteClient (p : Python N) (order : Dict N) : Json N :=
  pyOr p (get "clientOrderId" order) (get "client_order_id" order)

def taggedSpecs (p : Python N) (tag : String) (specs : List (OrderSpec N)) : List (OrderSpec N) :=
  specs.filter (fun spec => equal p (get "order_tag" spec.params) (.string tag) &&
    equal p (get "clientOrderId" spec.params) (.string tag))

def conflictingClient (p : Python N) (order : Dict N) (tag : String) : Bool :=
  match remoteClient p order with
  | .null => false
  | client => !equal p client (.string tag)

def conflictingSymbol (p : Python N) (order : Dict N) (symbol : Json N) : Bool :=
  match get "symbol" order with
  | .null => false
  | observed => !equal p observed symbol

def krakenProof (tag : String) (id symbol : Json N) (version : N) : Dict N :=
  [("version", .number version), ("profile", .string "kraken_batch_tag_v1"),
    ("tag", .string tag), ("clientOrderId", .string tag), ("exchangeOrderId", id),
    ("providerSymbol", symbol)]

def krakenBatchIdentity (p : Python N) (order : Dict N) (specs : List (OrderSpec N)) :
    Outcome (Option (String × Dict N)) :=
  match get "info" order with
  | .object info =>
    match get "order_tag" info with
    | .string tag =>
      match taggedSpecs p tag specs with
      | [spec] =>
        if !equal p (get "order_id" info) (get "id" order) || conflictingClient p order tag ||
          !truthy p spec.symbol || conflictingSymbol p order spec.symbol then .ok none
        else match Json.lookup "id" order with
          | none => .error (keyError "id")
          | some id => .ok (some (tag, krakenProof tag id spec.symbol (p.ofBool true)))
      | _ => .ok none
    | _ => .ok none
  | _ => .ok none

def hasTag (specs : List (OrderSpec N)) : Bool :=
  specs.any (fun spec => (Json.lookup "order_tag" spec.params).isSome)

def batchCandidate (p : Python N) (specs : List (OrderSpec N)) (exchange : String)
    (order : Dict N) : Outcome (Option (Dict N)) :=
  if exchange ≠ "krakenfutures" then .ok (some order)
  else do
    match ← krakenBatchIdentity p order specs with
    | none => return if hasTag specs then none else some order
    | some (tag, proof) =>
      return some (set "_identityOriginal" (.object order)
        (set "identityEvidence" (.object proof) (set "clientOrderId" (.string tag) order)))

/-- `isinstance(order, dict)`. -/
def dict? : Json N → Option (Dict N)
  | .object members => some members
  | _ => none

def batchObjects (p : Python N) (orders : List (Json N)) (specs : List (OrderSpec N))
    (exchange : String) : Outcome (List (Dict N)) := do
  return (← (orders.filterMap dict?).mapM (batchCandidate p specs exchange)).reduceOption

def clientText (p : Python N) (order : Dict N) : String :=
  str p (pyOr p (remoteClient p order) (.string ""))

def remoteText (p : Python N) (order : Dict N) : String :=
  str p (pyOr p (get "id" order) (.string ""))

/-- One round of `_confirmed_batch`. -/
def confirm (p : Python N) (clients remotes expected : List String)
    (normalize : Dict N → String → Option R) (confirmed : List (String × R)) (order : Dict N) :
    List (String × R) :=
  match remoteClient p order with
  | .string clientId =>
    if clientId ∉ expected then confirmed
    else if clients.count clientId ≠ 1 ∨ remotes.count (remoteText p order) ≠ 1 then confirmed
    else match normalize order clientId with
      | some result => set clientId result confirmed
      | none => confirmed
  | _ => confirmed

def confirmedBatch (p : Python N) (objects : List (Dict N)) (expected : List String)
    (normalize : Dict N → String → Option R) : List (String × R) :=
  objects.foldl (confirm p (objects.map (clientText p)) (objects.map (remoteText p)) expected
    normalize) []

/-- `UnresolvedOrderOutcome` carries the results and the identifiers without one. -/
inductive BatchOutcome (R : Type)
  | returned (entry stop : R)
  | unresolved (confirmed : List R) (clientIds : List String)

def value? (key : String) (confirmed : List (String × R)) : Option R :=
  (confirmed.find? (·.1 = key)).map (·.2)

/-- The end of `correlate_batch`, for a response of `count` elements. -/
def batchOutcome (entryId stopId : String) (count : ℕ) (confirmed : List (String × R)) :
    Outcome (BatchOutcome R) :=
  let unresolved := [entryId, stopId].filter (fun id => (value? id confirmed).isNone)
  if unresolved ≠ [] ∨ count ≠ 2 then .ok (.unresolved (confirmed.map (·.2)) unresolved)
  else match value? entryId confirmed, value? stopId confirmed with
    | some entry, some stop => .ok (.returned entry stop)
    | _, _ => .error (keyError entryId)

def correlateBatch (p : Python N) (orders : List (Json N)) (entry stop : OrderSpec N)
    (normalize : Dict N → String → Option R) (exchange : String) : Outcome (BatchOutcome R) := do
  let entryId ← orderIdentifier (get "clientOrderId" entry.params) "client"
  let stopId ← orderIdentifier (get "clientOrderId" stop.params) "client"
  throwIf (entryId = stopId)
    (contractError "Protected order requests require distinct client identifiers.")
  let objects ← batchObjects p orders [entry, stop] exchange
  batchOutcome entryId stopId orders.length
    (confirmedBatch p objects [entryId, stopId] normalize)

end Code

section Dictionaries

variable {V : Type} {items items' : List (String × V)} {key : String} {value : V}

theorem set_of_new (h : key ∉ items.map (·.1)) : set key value items = items ++ [(key, value)] := by
  rw [set, if_neg]
  rw [List.any_eq_true]
  rintro ⟨member, hmemb, hkey⟩
  rw [decide_eq_true_eq] at hkey
  exact h (hkey ▸ List.mem_map_of_mem hmemb)

theorem value?_eq_some (hnodup : (items.map (·.1)).Nodup) :
    value? key items = some value ↔ (key, value) ∈ items := by
  rw [value?, Option.map_eq_some_iff]
  refine ⟨?_, ?_⟩
  · rintro ⟨⟨other, _⟩, hfind, rfl⟩
    have hkey : other = key := by simpa using List.find?_some hfind
    exact hkey ▸ List.mem_of_find?_eq_some hfind
  · intro hmem
    have hsome : (items.find? (·.1 = key)).isSome := by
      rw [List.find?_isSome]
      exact ⟨(key, value), hmem, decide_eq_true rfl⟩
    obtain ⟨found, hfind⟩ := Option.isSome_iff_exists.mp hsome
    have hkey : found.1 = key := by simpa using List.find?_some hfind
    have heq := List.inj_on_of_nodup_map hnodup (List.mem_of_find?_eq_some hfind) hmem hkey
    exact ⟨found, hfind, by rw [heq]⟩

theorem value?_perm (hnodup : (items.map (·.1)).Nodup) (h : items.Perm items') :
    value? key items = value? key items' := by
  have hnodup' : (items'.map (·.1)).Nodup := (h.map _).nodup_iff.mp hnodup
  apply Option.ext
  intro value
  rw [value?_eq_some hnodup, value?_eq_some hnodup', h.mem_iff]

theorem eq_of_count {α : Type} {f : α → String} {as : List α} {a b : α} {image : String}
    (h : (as.map f).count image = 1) (ha : a ∈ as) (hb : b ∈ as) (hfa : f a = image)
    (hfb : f b = image) : a = b := by
  induction as with
  | nil => cases ha
  | cons c as ih =>
    rw [List.map_cons, List.count_cons] at h
    have hnone {x : α} (hx : x ∈ as) (hfx : f x = image) : 0 < (as.map f).count image :=
      List.count_pos_iff.mpr (hfx ▸ List.mem_map_of_mem hx)
    obtain rfl | harest := List.mem_cons.mp ha
    · obtain rfl | hbrest := List.mem_cons.mp hb
      · rfl
      · have hpos := hnone hbrest hfb
        rw [hfa, beq_self_eq_true, if_pos rfl] at h
        omega
    · have hpos := hnone harest hfa
      obtain rfl | hbrest := List.mem_cons.mp hb
      · rw [hfb, beq_self_eq_true, if_pos rfl] at h
        omega
      · have hone : (as.map f).count image = 1 := by
          split_ifs at h <;> omega
        exact ih hone harest hbrest

end Dictionaries

section Confirmation

variable {p : Python N} {objects objects' : List (Dict N)} {expected : List String}
  {normalize : Dict N → String → Option R} {order : Dict N} {id : String} {result : R}

def confirmation (p : Python N) (objects : List (Dict N)) (expected : List String)
    (normalize : Dict N → String → Option R) (order : Dict N) : Option (String × R) :=
  match remoteClient p order with
  | .string clientId =>
    if clientId ∈ expected ∧ (objects.map (clientText p)).count clientId = 1 ∧
      (objects.map (remoteText p)).count (remoteText p order) = 1
    then (normalize order clientId).map (fun result => (clientId, result)) else none
  | _ => none

theorem confirmation_eq_some : confirmation p objects expected normalize order = some (id, result) ↔
    remoteClient p order = .string id ∧ id ∈ expected ∧
      (objects.map (clientText p)).count id = 1 ∧
      (objects.map (remoteText p)).count (remoteText p order) = 1 ∧
      normalize order id = some result := by
  unfold confirmation
  cases hclient : remoteClient p order with
  | string clientId =>
    dsimp only
    split_ifs with hall
    · rw [Option.map_eq_some_iff]
      refine ⟨?_, ?_⟩
      · rintro ⟨other, hother, heq⟩
        obtain ⟨rfl, rfl⟩ := Prod.mk.inj heq
        exact ⟨rfl, hall.1, hall.2.1, hall.2.2, hother⟩
      · rintro ⟨heq, -, -, -, hres⟩
        obtain rfl := Json.string.inj heq
        exact ⟨result, hres, rfl⟩
    · refine ⟨False.elim, ?_⟩
      rintro ⟨heq, hmem, hclients, hremotes, -⟩
      obtain rfl := Json.string.inj heq
      exact absurd ⟨hmem, hclients, hremotes⟩ hall
  | null => simp
  | bool value => simp
  | number value => simp
  | array items => simp
  | object members => simp

theorem clientText_of_client (h : remoteClient p order = .string id) : clientText p order = id := by
  rw [clientText, h, pyOr]
  split_ifs with htruthy
  · rfl
  · have hempty : id = "" := by
      simpa [truthy] using htruthy
    rw [hempty]
    rfl

theorem confirm_eq (acc : List (String × R)) :
    confirm p (objects.map (clientText p)) (objects.map (remoteText p)) expected normalize
      acc order =
      match confirmation p objects expected normalize order with
      | some (id, result) => set id result acc
      | none => acc := by
  unfold confirm confirmation
  cases hclient : remoteClient p order with
  | string clientId =>
    dsimp only
    by_cases hmem : clientId ∈ expected
    · by_cases hclients : (objects.map (clientText p)).count clientId = 1
      · by_cases hremotes : (objects.map (remoteText p)).count (remoteText p order) = 1
        · simp only [hmem, hclients, hremotes, not_true_eq_false, ne_eq, or_self, if_false,
            and_self, if_true]
          cases normalize order clientId <;> rfl
        · simp only [hmem, hremotes, not_true_eq_false, ne_eq, not_false_eq_true, or_true, if_true,
            and_false, if_false]
      · simp only [hmem, hclients, not_true_eq_false, ne_eq, not_false_eq_true, true_or, if_true,
          false_and, and_false, if_false]
    · simp only [hmem, not_false_eq_true, if_true, false_and, if_false]
  | null => rfl
  | bool value => rfl
  | number value => rfl
  | array items => rfl
  | object members => rfl

theorem confirmedBatch_eq : confirmedBatch p objects expected normalize =
    objects.filterMap (confirmation p objects expected normalize) := by
  have hloop (done rest : List (Dict N)) (hsplit : done ++ rest = objects) :
      rest.foldl (confirm p (objects.map (clientText p)) (objects.map (remoteText p)) expected
        normalize) (done.filterMap (confirmation p objects expected normalize)) =
          objects.filterMap (confirmation p objects expected normalize) := by
    induction rest generalizing done with
    | nil =>
      rw [List.append_nil] at hsplit
      rw [hsplit]
      rfl
    | cons order rest ih =>
      rw [List.foldl_cons, confirm_eq]
      have hnext := ih (done ++ [order]) (by rw [List.append_assoc, List.singleton_append, hsplit])
      rw [List.filterMap_append] at hnext
      rw [← hnext]
      congr 1
      cases hconfirm : confirmation p objects expected normalize order with
      | none =>
        rw [List.filterMap_cons_none hconfirm, List.filterMap_nil, List.append_nil]
      | some pair =>
        obtain ⟨id, result⟩ := pair
        rw [List.filterMap_cons_some hconfirm, List.filterMap_nil]
        apply set_of_new
        intro hkey
        obtain ⟨⟨earlierId, other⟩, hmem, hsame⟩ := List.mem_map.mp hkey
        change earlierId = id at hsame
        rw [hsame] at hmem
        obtain ⟨earlier, hearlier, hother⟩ := List.mem_filterMap.mp hmem
        obtain ⟨hclient, -, hcount, -⟩ := confirmation_eq_some.mp hconfirm
        obtain ⟨hearlierClient, -⟩ := confirmation_eq_some.mp hother
        -- an earlier object with the same client would make two of them
        have hfirst : id ∈ done.map (clientText p) :=
          List.mem_map.mpr ⟨earlier, hearlier, clientText_of_client hearlierClient⟩
        have hpositive := List.count_pos_iff.mpr hfirst
        rw [← hsplit, List.map_append, List.count_append, List.map_cons,
          clientText_of_client hclient, List.count_cons_self] at hcount
        omega
  exact hloop [] objects rfl

theorem keys_nodup :
    ((objects.filterMap (confirmation p objects expected normalize)).map (·.1)).Nodup := by
  have hsub (rest : List (Dict N)) :
      ((rest.filterMap (confirmation p objects expected normalize)).map (·.1)).Sublist
        (rest.map (clientText p)) := by
    induction rest with
    | nil => exact .slnil
    | cons order rest ih =>
      cases hconfirm : confirmation p objects expected normalize order with
      | none =>
        rw [List.filterMap_cons_none hconfirm]
        exact ih.cons _
      | some pair =>
        obtain ⟨id, result⟩ := pair
        rw [List.filterMap_cons_some hconfirm, List.map_cons, List.map_cons,
          clientText_of_client (confirmation_eq_some.mp hconfirm).1]
        exact ih.cons_cons _
  rw [List.nodup_iff_count_le_one]
  intro id
  by_cases hmem : id ∈ (objects.filterMap (confirmation p objects expected normalize)).map (·.1)
  · obtain ⟨⟨_, result⟩, hpair, rfl⟩ := List.mem_map.mp hmem
    obtain ⟨order, -, hconfirm⟩ := List.mem_filterMap.mp hpair
    have hone := (confirmation_eq_some.mp hconfirm).2.2.1
    exact ((hsub objects).count_le _).trans_eq hone
  · rw [List.count_eq_zero.mpr hmem]
    exact Nat.zero_le 1

theorem confirmation_perm (h : objects.Perm objects') :
    confirmation p objects expected normalize = confirmation p objects' expected normalize := by
  funext order
  apply Option.ext
  rintro ⟨id, result⟩
  rw [confirmation_eq_some, confirmation_eq_some, (h.map (clientText p)).count_eq,
    (h.map (remoteText p)).count_eq]

theorem confirmedBatch_perm (h : objects.Perm objects') :
    (confirmedBatch p objects expected normalize).Perm
      (confirmedBatch p objects' expected normalize) := by
  rw [confirmedBatch_eq, confirmedBatch_eq, confirmation_perm h]
  exact h.filterMap _

end Confirmation

section Members

variable {key other : String} {value : Json N} {members : Dict N}

theorem lookup_set : Json.lookup key (set key value members) = some value := by
  unfold set
  split_ifs with hany
  · rw [Json.lookup, List.find?_map]
    obtain ⟨member, hmemb, hkey⟩ := List.any_eq_true.mp hany
    rw [decide_eq_true_eq] at hkey
    have hfun : (fun member : String × Json N => decide (member.1 = key)) ∘
        (fun member => if member.1 = key then (key, value) else member) =
          fun member => decide (member.1 = key) := by
      funext member
      by_cases h : member.1 = key <;> simp [h]
    rw [hfun]
    have hsome : (members.find? (fun member => decide (member.1 = key))).isSome :=
      List.find?_isSome.mpr ⟨member, hmemb, decide_eq_true hkey⟩
    obtain ⟨found, hfind⟩ := Option.isSome_iff_exists.mp hsome
    have hfound : found.1 = key := by simpa using List.find?_some hfind
    simp [hfind, hfound]
  · have hnone : members.find? (fun member => decide (member.1 = key)) = none := by
      rw [List.find?_eq_none]
      intro member hmemb hkey
      exact hany (List.any_eq_true.mpr ⟨member, hmemb, hkey⟩)
    rw [Json.lookup, List.find?_append, hnone]
    simp

theorem lookup_set_ne (h : other ≠ key) :
    Json.lookup other (set key value members) = Json.lookup other members := by
  unfold set
  split_ifs with hany
  · rw [Json.lookup, List.find?_map, Json.lookup]
    have hfun : (fun member : String × Json N => decide (member.1 = other)) ∘
        (fun member => if member.1 = key then (key, value) else member) =
          fun member => decide (member.1 = other) := by
      funext member
      by_cases hkey : member.1 = key
      · simp [hkey, h.symm]
      · simp [hkey]
    rw [hfun, Option.map_map]
    cases hfind : members.find? (fun member => decide (member.1 = other)) with
    | none => rfl
    | some found =>
      have hfound : found.1 = other := by simpa using List.find?_some hfind
      simp [hfound, h]
  · rw [Json.lookup, List.find?_append, Json.lookup]
    simp [h.symm]

theorem equal_string {p : Python N} {text : String} (h : equal p value (.string text) = true) :
    value = .string text := by
  cases value with
  | string other =>
    rw [equal, decide_eq_true_eq] at h
    rw [h]
  | null => simp [equal] at h
  | bool value => simp [equal] at h
  | number value => simp [equal] at h
  | array items => simp [equal] at h
  | object members => simp [equal] at h

end Members

section Evidence

variable {p : Python N} {specs : List (OrderSpec N)} {exchange tag : String}
  {order candidate proof : Dict N}

/-- A native tag that names one spec, with its order and without another symbol. -/
def NativeProof (p : Python N) (specs : List (OrderSpec N)) (order : Dict N)
    (tag : String) : Prop :=
  ∃ info spec, get "info" order = .object info ∧ get "order_tag" info = .string tag ∧
    taggedSpecs p tag specs = [spec] ∧
    equal p (get "order_id" info) (get "id" order) = true ∧ truthy p spec.symbol = true ∧
    (get "symbol" order = .null ∨ equal p (get "symbol" order) spec.symbol = true)

theorem nativeProof_of_identity (h : krakenBatchIdentity p order specs = .ok (some (tag, proof))) :
    NativeProof p specs order tag := by
  unfold krakenBatchIdentity at h
  split at h
  · rename_i info hinfo
    split at h
    · rename_i observed htag
      split at h
      · rename_i spec hspecs
        split_ifs at h with hbad
        · cases h
        · split at h
          · cases h
          · obtain ⟨rfl, -⟩ := Prod.mk.inj (Option.some.inj (Except.ok.inj h))
            simp only [Bool.or_eq_true, Bool.not_eq_true', not_or, Bool.not_eq_false] at hbad
            refine ⟨info, spec, hinfo, htag, hspecs, hbad.1.1.1, hbad.1.2, ?_⟩
            have hsym := hbad.2
            unfold conflictingSymbol at hsym
            split at hsym
            · rename_i hnull
              exact .inl hnull
            · exact .inr (by simpa using hsym)
      · cases h
    · cases h
  · cases h

theorem batchCandidate_throws :
    Throws (· = keyError "id") (batchCandidate p specs exchange order) := by
  unfold batchCandidate
  by_cases hexch : exchange ≠ "krakenfutures"
  · rw [if_pos hexch]
    exact throws_ok _
  · rw [if_neg hexch]
    refine Throws.bind ?_ ?_
    · unfold krakenBatchIdentity
      split
      · split
        · split
          · split_ifs
            · exact throws_ok _
            · split
              · exact throws_error rfl
              · exact throws_ok _
          · exact throws_ok _
        · exact throws_ok _
      · exact throws_ok _
    · intro identity _
      split
      · exact throws_pure _
      · exact throws_pure _

theorem candidate_native (hexch : exchange = "krakenfutures") (htag : hasTag specs = true)
    (h : batchCandidate p specs exchange order = .ok (some candidate)) :
    ∃ tag proof, NativeProof p specs order tag ∧
      candidate = set "_identityOriginal" (.object order)
        (set "identityEvidence" (.object proof) (set "clientOrderId" (.string tag) order)) := by
  rw [batchCandidate, if_neg (not_not.mpr hexch)] at h
  obtain ⟨identity, hident, h⟩ := bind_eq_ok.mp h
  cases identity with
  | none =>
    rw [if_pos htag] at h
    cases h
  | some identity =>
    obtain ⟨tag, proof⟩ := identity
    exact ⟨tag, proof, nativeProof_of_identity hident, (Option.some.inj (pure_eq_ok_iff.mp h)).symm⟩

theorem taggedSpec_client {spec : OrderSpec N} (h : spec ∈ taggedSpecs p tag specs) :
    spec ∈ specs ∧ get "clientOrderId" spec.params = .string tag := by
  obtain ⟨hmem, hboth⟩ := List.mem_filter.mp h
  rw [Bool.and_eq_true] at hboth
  exact ⟨hmem, equal_string hboth.2⟩

theorem orderIdentifier_ok {value : Json N} {label text : String}
    (h : orderIdentifier value label = .ok text) : value = .string text ∧ text ≠ "" := by
  unfold orderIdentifier at h
  split at h
  · simp only [bind_eq_ok, throwIf_eq_ok, pure_eq_ok_iff, not_or] at h
    obtain ⟨-, ⟨hspace, -⟩, rfl⟩ := h
    refine ⟨rfl, ?_⟩
    rintro rfl
    exact hspace rfl
  · cases h

theorem client_of_native {id : String} (hvalid : ∀ spec ∈ specs,
      get "clientOrderId" spec.params ≠ .string "")
    (hproof : NativeProof p specs order tag)
    (hcand : candidate = set "_identityOriginal" (.object order)
      (set "identityEvidence" (.object proof) (set "clientOrderId" (.string tag) order)))
    (hclient : remoteClient p candidate = .string id) : tag = id := by
  obtain ⟨info, spec, -, -, hspecs, -⟩ := hproof
  obtain ⟨hmem, hspec⟩ := @taggedSpec_client _ p specs tag spec
    (hspecs ▸ List.mem_singleton.mpr rfl)
  have hnonempty : tag ≠ "" := by
    rintro rfl
    exact hvalid spec hmem hspec
  have hget : get "clientOrderId" candidate = .string tag := by
    rw [get, hcand, lookup_set_ne (by decide), lookup_set_ne (by decide), lookup_set]
    rfl
  rw [remoteClient, hget, pyOr, if_pos (by simpa [truthy] using hnonempty)] at hclient
  exact Json.string.inj hclient

theorem candidate_id (h : batchCandidate p specs exchange order = .ok (some candidate)) :
    get "id" candidate = get "id" order := by
  unfold batchCandidate at h
  by_cases hexch : exchange ≠ "krakenfutures"
  · rw [if_pos hexch] at h
    obtain rfl := Option.some.inj (Except.ok.inj h)
    rfl
  · rw [if_neg hexch] at h
    obtain ⟨identity, -, h⟩ := bind_eq_ok.mp h
    cases identity with
    | none =>
      dsimp only at h
      split_ifs at h
      · cases h
      · obtain rfl := Option.some.inj (pure_eq_ok_iff.mp h)
        rfl
    | some identity =>
      obtain rfl := Option.some.inj (pure_eq_ok_iff.mp h)
      rw [get, lookup_set_ne (by decide), lookup_set_ne (by decide), lookup_set_ne (by decide), get]

end Evidence

section Responses

variable {p : Python N} {orders orders' : List (Json N)} {specs : List (OrderSpec N)}
  {exchange : String} {objects : List (Dict N)} {expected : List String}
  {normalize : Dict N → String → Option R} {id : String} {result : R} {entry stop : OrderSpec N}
  {entryId stopId : String} {count : ℕ} {confirmed : List (String × R)}

theorem mapM_perm {α β : Type} {f : α → Outcome β} {as as' : List α} {bs : List β}
    (h : as.Perm as') (hbs : as.mapM f = .ok bs) : ∃ bs', as'.mapM f = .ok bs' ∧ bs.Perm bs' := by
  obtain ⟨bs', hbs', hperm⟩ := List.perm_comp_forall₂ h.symm (mapM_eq_ok.mp hbs)
  exact ⟨bs', mapM_eq_ok.mpr hbs', hperm.symm⟩

theorem batchObjects_perm (h : orders.Perm orders')
    (hobjects : batchObjects p orders specs exchange = .ok objects) :
    ∃ objects', batchObjects p orders' specs exchange = .ok objects' ∧ objects.Perm objects' := by
  obtain ⟨candidates, hmap, hpure⟩ := bind_eq_ok.mp hobjects
  obtain rfl := pure_eq_ok_iff.mp hpure
  obtain ⟨candidates', hmap', hperm⟩ := mapM_perm (h.filterMap dict?) hmap
  refine ⟨candidates'.reduceOption, ?_, hperm.filterMap _⟩
  rw [batchObjects, hmap', ok_bind]
  rfl

theorem batchObjects_throws :
    Throws (· = keyError "id") (batchObjects p orders specs exchange) := by
  refine Throws.bind (throws_mapM (fun _ _ => batchCandidate_throws)) ?_
  intro candidates _
  exact throws_pure _

theorem mem_batchObjects (h : batchObjects p orders specs exchange = .ok objects)
    {candidate : Dict N} : candidate ∈ objects ↔ ∃ order, .object order ∈ orders ∧
      batchCandidate p specs exchange order = .ok (some candidate) := by
  obtain ⟨candidates, hmap, hpure⟩ := bind_eq_ok.mp h
  obtain rfl := pure_eq_ok_iff.mp hpure
  have hdict {order : Dict N} : order ∈ orders.filterMap dict? ↔ .object order ∈ orders := by
    rw [List.mem_filterMap]
    refine ⟨?_, fun hmem => ⟨.object order, hmem, rfl⟩⟩
    rintro ⟨value, hmem, hvalue⟩
    cases value with
    | object members =>
      obtain rfl := Option.some.inj hvalue
      exact hmem
    | null => cases hvalue
    | bool value => cases hvalue
    | number value => cases hvalue
    | string value => cases hvalue
    | array items => cases hvalue
  rw [List.reduceOption_mem_iff]
  refine ⟨?_, ?_⟩
  · intro hmem
    obtain ⟨order, horder, hcand⟩ := exists_of_mem_mapM hmap hmem
    exact ⟨order, hdict.mp horder, hcand⟩
  · rintro ⟨order, horder, hcand⟩
    obtain ⟨found, hmem, hfound⟩ := result_of_mem_mapM hmap (hdict.mpr horder)
    rw [hcand] at hfound
    obtain rfl := Except.ok.inj hfound
    exact hmem

/-- An element of the response is confirmed under a client identifier that no other one carries. -/
structure Confirmed (p : Python N) (orders : List (Json N)) (specs : List (OrderSpec N))
    (exchange : String) (normalize : Dict N → String → Option R) (id : String) (result : R)
    (order candidate : Dict N) : Prop where
  element : .object order ∈ orders
  evidence : batchCandidate p specs exchange order = .ok (some candidate)
  client : remoteClient p candidate = .string id
  unique : ∀ other rival, .object other ∈ orders →
    batchCandidate p specs exchange other = .ok (some rival) → clientText p rival = id →
    rival = candidate
  result : normalize candidate id = some result
  native : exchange = "krakenfutures" → hasTag specs = true → NativeProof p specs order id

theorem confirmed_of_mem (hvalid : ∀ spec ∈ specs, get "clientOrderId" spec.params ≠ .string "")
    (h : batchObjects p orders specs exchange = .ok objects)
    (hmem : (id, result) ∈ confirmedBatch p objects expected normalize) :
    id ∈ expected ∧ ∃ order candidate, candidate ∈ objects ∧
      (objects.map (remoteText p)).count (remoteText p candidate) = 1 ∧
      Confirmed p orders specs exchange normalize id result order candidate := by
  rw [confirmedBatch_eq] at hmem
  obtain ⟨candidate, hcand, hconfirm⟩ := List.mem_filterMap.mp hmem
  obtain ⟨hclient, hexp, hclients, hremotes, hres⟩ := confirmation_eq_some.mp hconfirm
  obtain ⟨order, horder, hfrom⟩ := (mem_batchObjects h).mp hcand
  refine ⟨hexp, order, candidate, hcand, hremotes, horder, hfrom, hclient, ?_, hres, ?_⟩
  · intro other rival hother hrival htext
    have hrivalMem := (mem_batchObjects h).mpr ⟨other, hother, hrival⟩
    exact eq_of_count hclients hrivalMem hcand htext (clientText_of_client hclient)
  · intro hexch htag
    obtain ⟨tag, proof, hproof, heq⟩ := candidate_native hexch htag hfrom
    obtain rfl := client_of_native hvalid hproof heq hclient
    exact hproof

theorem confirmedBatch_nodup :
    ((confirmedBatch p objects expected normalize).map (·.1)).Nodup := by
  rw [confirmedBatch_eq]
  exact keys_nodup

theorem correlateBatch_eq_ok {outcome : BatchOutcome R}
    (h : correlateBatch p orders entry stop normalize exchange = .ok outcome) :
    ∃ entryId stopId objects, get "clientOrderId" entry.params = .string entryId ∧
      get "clientOrderId" stop.params = .string stopId ∧ entryId ≠ "" ∧ stopId ≠ "" ∧
      entryId ≠ stopId ∧ batchObjects p orders [entry, stop] exchange = .ok objects ∧
      batchOutcome entryId stopId orders.length
        (confirmedBatch p objects [entryId, stopId] normalize) = .ok outcome := by
  simp only [correlateBatch, bind_eq_ok, throwIf_eq_ok] at h
  obtain ⟨entryId, hentry, stopId, hstop, -, hne, objects, hobjects, houtcome⟩ := h
  obtain ⟨hentryClient, hentryText⟩ := orderIdentifier_ok hentry
  obtain ⟨hstopClient, hstopText⟩ := orderIdentifier_ok hstop
  exact ⟨entryId, stopId, objects, hentryClient, hstopClient, hentryText, hstopText, hne, hobjects,
    houtcome⟩

theorem valid_specs (hentry : get "clientOrderId" entry.params = .string entryId)
    (hstop : get "clientOrderId" stop.params = .string stopId) (hentryText : entryId ≠ "")
    (hstopText : stopId ≠ "") :
    ∀ spec ∈ [entry, stop], get "clientOrderId" spec.params ≠ .string "" := by
  intro spec hmem hempty
  simp only [List.mem_cons, List.not_mem_nil, or_false] at hmem
  obtain rfl | rfl := hmem
  · exact hentryText (Json.string.inj (hentry.symm.trans hempty))
  · exact hstopText (Json.string.inj (hstop.symm.trans hempty))

theorem batchOutcome_returned {e s : R}
    (h : batchOutcome entryId stopId count confirmed = .ok (.returned e s)) :
    count = 2 ∧ value? entryId confirmed = some e ∧ value? stopId confirmed = some s := by
  unfold batchOutcome at h
  dsimp only at h
  split_ifs at h with hopen
  · cases h
  · rw [not_or, not_not, not_not] at hopen
    split at h
    · rename_i entry stop hentry hstop
      cases h
      exact ⟨hopen.2, hentry, hstop⟩
    · cases h

theorem batchOutcome_unresolved {results : List R} {ids : List String}
    (h : batchOutcome entryId stopId count confirmed = .ok (.unresolved results ids)) :
    results = confirmed.map (·.2) ∧
      ids = [entryId, stopId].filter (fun id => (value? id confirmed).isNone) := by
  unfold batchOutcome at h
  dsimp only at h
  split_ifs at h
  · cases h
    exact ⟨rfl, rfl⟩
  · split at h <;> cases h

/-- Outcomes up to the order of the confirmed results. -/
def SameOutcome : Outcome (BatchOutcome R) → Outcome (BatchOutcome R) → Prop
  | .ok (.returned e s), .ok (.returned e' s') => e = e' ∧ s = s'
  | .ok (.unresolved results ids), .ok (.unresolved results' ids') => results.Perm results' ∧
    ids = ids'
  | .error e, .error e' => e = e'
  | _, _ => False

theorem sameOutcome_refl (outcome : Outcome (BatchOutcome R)) : SameOutcome outcome outcome := by
  match outcome with
  | .ok (.returned e s) => exact ⟨rfl, rfl⟩
  | .ok (.unresolved results ids) => exact ⟨.refl _, rfl⟩
  | .error e => exact rfl

theorem batchOutcome_perm {confirmed' : List (String × R)} (hnodup : (confirmed.map (·.1)).Nodup)
    (h : confirmed.Perm confirmed') : SameOutcome (batchOutcome entryId stopId count confirmed)
      (batchOutcome entryId stopId count confirmed') := by
  have hvalue (id : String) : value? id confirmed' = value? id confirmed :=
    (value?_perm hnodup h).symm
  unfold batchOutcome
  dsimp only
  simp only [hvalue]
  split_ifs
  · exact ⟨h.map _, rfl⟩
  · exact sameOutcome_refl _

theorem correlateBatch_perm (h : orders.Perm orders') :
    SameOutcome (correlateBatch p orders entry stop normalize exchange)
      (correlateBatch p orders' entry stop normalize exchange) := by
  unfold correlateBatch
  cases hentry : orderIdentifier (get "clientOrderId" entry.params) "client" with
  | error e => exact sameOutcome_refl _
  | ok entryId =>
    cases hstop : orderIdentifier (get "clientOrderId" stop.params) "client" with
    | error e => exact sameOutcome_refl _
    | ok stopId =>
      simp only [ok_bind]
      cases hthrow : throwIf (entryId = stopId) (contractError
        "Protected order requests require distinct client identifiers.") with
      | error e => exact sameOutcome_refl _
      | ok _ =>
        simp only [ok_bind]
        cases hobjects : batchObjects p orders [entry, stop] exchange with
        | error e =>
          obtain rfl := batchObjects_throws e hobjects
          cases hother : batchObjects p orders' [entry, stop] exchange with
          | error e' =>
            obtain rfl := batchObjects_throws e' hother
            exact rfl
          | ok objects' =>
            obtain ⟨objects, hok, -⟩ := batchObjects_perm h.symm hother
            rw [hobjects] at hok
            cases hok
        | ok objects =>
          obtain ⟨objects', hother, hperm⟩ := batchObjects_perm h hobjects
          rw [hother, ok_bind, ok_bind, ← h.length_eq]
          exact batchOutcome_perm confirmedBatch_nodup (confirmedBatch_perm hperm)

theorem remoteText_candidate {order candidate : Dict N}
    (h : batchCandidate p specs exchange order = .ok (some candidate)) :
    remoteText p candidate = remoteText p order := by
  rw [remoteText, candidate_id h, remoteText]

theorem perm_pair {α : Type} {as : List α} {a b : α} (hlen : as.length = 2) (ha : a ∈ as)
    (hb : b ∈ as) (hne : a ≠ b) : as.Perm [a, b] := by
  obtain ⟨x, y, rfl⟩ := List.length_eq_two.mp hlen
  simp only [List.mem_cons, List.not_mem_nil, or_false] at ha hb
  obtain rfl | rfl := ha
  · obtain rfl | rfl := hb
    · exact absurd rfl hne
    · exact .refl _
  · obtain rfl | rfl := hb
    · exact .swap _ _ _
    · exact absurd rfl hne

theorem returned_legs {e s : R}
    (h : correlateBatch p orders entry stop normalize exchange = .ok (.returned e s)) :
    ∃ entryId stopId first second firstCandidate secondCandidate,
      get "clientOrderId" entry.params = .string entryId ∧
      get "clientOrderId" stop.params = .string stopId ∧ entryId ≠ stopId ∧
      orders.Perm [.object first, .object second] ∧
      Confirmed p orders [entry, stop] exchange normalize entryId e first firstCandidate ∧
      Confirmed p orders [entry, stop] exchange normalize stopId s second secondCandidate ∧
      remoteText p first ≠ remoteText p second := by
  obtain ⟨entryId, stopId, objects, hentry, hstop, hentryText, hstopText, hne, hobjects,
    houtcome⟩ :=
    correlateBatch_eq_ok h
  obtain ⟨hlen, hentryValue, hstopValue⟩ := batchOutcome_returned houtcome
  rw [value?_eq_some confirmedBatch_nodup] at hentryValue hstopValue
  have hvalid := valid_specs hentry hstop hentryText hstopText
  obtain ⟨-, first, firstCandidate, hfirstMem, hfirstCount, hfirst⟩ :=
    confirmed_of_mem hvalid hobjects hentryValue
  obtain ⟨-, second, secondCandidate, hsecondMem, -, hsnd⟩ :=
    confirmed_of_mem hvalid hobjects hstopValue
  have hcands : firstCandidate ≠ secondCandidate := by
    rintro rfl
    exact hne (Json.string.inj (hfirst.client.symm.trans hsnd.client))
  refine ⟨entryId, stopId, first, second, firstCandidate, secondCandidate, hentry, hstop, hne, ?_,
    hfirst, hsnd, ?_⟩
  · apply perm_pair hlen hfirst.element hsnd.element
    intro hsame
    obtain rfl := Json.object.inj hsame
    exact hcands (Option.some.inj (Except.ok.inj (hfirst.evidence.symm.trans hsnd.evidence)))
  · intro hsame
    rw [← remoteText_candidate hfirst.evidence, ← remoteText_candidate hsnd.evidence] at hsame
    exact hcands (eq_of_count hfirstCount hfirstMem hsecondMem rfl hsame.symm)

theorem unresolved_legs {results : List R} {ids : List String}
    (h : correlateBatch p orders entry stop normalize exchange = .ok (.unresolved results ids)) :
    ∃ entryId stopId, get "clientOrderId" entry.params = .string entryId ∧
      get "clientOrderId" stop.params = .string stopId ∧
      ∃ items : List (String × R), results = items.map (·.2) ∧ (items.map (·.1)).Nodup ∧
        (∀ id, id = entryId ∨ id = stopId → (id ∈ ids ↔ id ∉ items.map (·.1))) ∧
        ∀ id result, (id, result) ∈ items → (id = entryId ∨ id = stopId) ∧
          ∃ order candidate,
            Confirmed p orders [entry, stop] exchange normalize id result order candidate := by
  obtain ⟨entryId, stopId, objects, hentry, hstop, hentryText, hstopText, -, hobjects, houtcome⟩ :=
    correlateBatch_eq_ok h
  obtain ⟨rfl, rfl⟩ := batchOutcome_unresolved houtcome
  have hexp {id : String} : id ∈ [entryId, stopId] ↔ id = entryId ∨ id = stopId := by
    rw [List.mem_cons, List.mem_singleton]
  refine ⟨entryId, stopId, hentry, hstop, _, rfl, confirmedBatch_nodup, ?_, ?_⟩
  · intro id hid
    rw [List.mem_filter, hexp, Option.isNone_iff_eq_none, value?, Option.map_eq_none_iff,
      List.find?_eq_none, List.mem_map]
    refine ⟨?_, ?_⟩
    · rintro ⟨-, hnone⟩ ⟨item, hitem, hkey⟩
      exact hnone item hitem (decide_eq_true hkey)
    · intro hnone
      refine ⟨hid, ?_⟩
      intro item hitem hkey
      exact hnone ⟨item, hitem, of_decide_eq_true hkey⟩
  · intro id result hitem
    obtain ⟨hmem, order, candidate, -, -, hconfirmed⟩ :=
      confirmed_of_mem (valid_specs hentry hstop hentryText hstopText) hobjects hitem
    exact ⟨hexp.mp hmem, order, candidate, hconfirmed⟩

end Responses

section Claims

def plain : Python ℕ where
  truthy value := value ≠ 0
  equal left right := left = right
  ofBool value := value.toNat
  text _ := ""

def taggedSpec (leg : String) : OrderSpec ℕ where
  symbol := .string "BTC/USD:USD"
  params := [("clientOrderId", .string leg), ("order_tag", .string leg)]

def taggedLeg (leg remote : String) : Dict ℕ :=
  [("id", .string remote), ("info", .object [("order_id", .string remote),
    ("order_tag", .string leg)])]

/-- A leg is confirmed that carries no symbol at all. -/
theorem leg_without_symbol : hasTag [taggedSpec "own-entry", taggedSpec "own-stop"] = true ∧
    Json.lookup "symbol" (taggedLeg "own-entry" "r1") = none ∧
    correlateBatch plain [.object (taggedLeg "own-stop" "r2"), .object (taggedLeg "own-entry" "r1")]
      (taggedSpec "own-entry") (taggedSpec "own-stop") (fun _ clientId => some clientId)
      "krakenfutures" = .ok (.returned "own-entry" "own-stop") := by
  refine ⟨rfl, rfl, ?_⟩
  rfl

variable {p : Python N} {orders : List (Json N)} {exchange : String}
  {normalize : Dict N → String → Option R} {entry stop : OrderSpec N}

/-- No leg is swapped or made up, and the order of the response does not matter. -/
theorem correlateBatch_sound :
    (∀ e s, correlateBatch p orders entry stop normalize exchange = .ok (.returned e s) →
      ∃ entryId stopId first second firstCandidate secondCandidate,
        get "clientOrderId" entry.params = .string entryId ∧
        get "clientOrderId" stop.params = .string stopId ∧ entryId ≠ stopId ∧
        orders.Perm [.object first, .object second] ∧
        Confirmed p orders [entry, stop] exchange normalize entryId e first firstCandidate ∧
        Confirmed p orders [entry, stop] exchange normalize stopId s second secondCandidate ∧
        remoteText p first ≠ remoteText p second) ∧
    (∀ results ids,
      correlateBatch p orders entry stop normalize exchange = .ok (.unresolved results ids) →
      ∃ entryId stopId, get "clientOrderId" entry.params = .string entryId ∧
        get "clientOrderId" stop.params = .string stopId ∧
        ∃ items : List (String × R), results = items.map (·.2) ∧ (items.map (·.1)).Nodup ∧
          (∀ id, id = entryId ∨ id = stopId → (id ∈ ids ↔ id ∉ items.map (·.1))) ∧
          ∀ id result, (id, result) ∈ items → (id = entryId ∨ id = stopId) ∧
            ∃ order candidate,
              Confirmed p orders [entry, stop] exchange normalize id result order candidate) ∧
    (∀ orders', orders.Perm orders' →
      SameOutcome (correlateBatch p orders entry stop normalize exchange)
        (correlateBatch p orders' entry stop normalize exchange)) :=
  ⟨fun _ _ h => returned_legs h, fun _ _ h => unresolved_legs h, fun _ h => correlateBatch_perm h⟩

end Claims

end TsxCore.Executor.OrderIdentity
