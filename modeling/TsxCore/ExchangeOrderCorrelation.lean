import TsxCore.TradingTypes

/-!
# Correlation of remote orders with managed orders (`exchange_order_correlation.ts`)

A remote order or fill is looked up by its client id, then by its exchange id within its symbol
namespace. The list of managed orders is that of one account, so its client ids are distinct.
-/

namespace TsxCore.ExchangeOrderCorrelation

open Outcome TradingDecimal TradingTypes

structure LocalCorrelationOrder where
  clientOrderId : String
  exchangeOrderId : Option String
  providerSymbol : Option String
  symbol : String
  role : OrderRole
  side : String
  quantity : String
  reduceOnly : ℤ
  triggerPrice : Option String
  deriving DecidableEq

/-- What a snapshot or a fill says about the order it belongs to. -/
structure RemoteIdentity where
  clientOrderId : Option String
  exchangeOrderId : String
  symbol : Option String
  providerSymbol : Option String

structure ExchangeOrderSnapshot where
  clientOrderId : Option String
  exchangeOrderId : String
  providerSymbol : Option String
  symbol : String
  role : OrderRole
  side : String
  quantity : String
  triggerPrice : Option String
  reduceOnly : Bool

abbrev ExchangeFill := RemoteIdentity

def ExchangeOrderSnapshot.identity (remote : ExchangeOrderSnapshot) : RemoteIdentity :=
  ⟨remote.clientOrderId, remote.exchangeOrderId, some remote.symbol, remote.providerSymbol⟩

def namespaceMatches (managed : LocalCorrelationOrder) (remote : RemoteIdentity) : Bool :=
  if remote.symbol ≠ none ∧ remote.symbol ≠ some managed.symbol then false
  else if managed.providerSymbol ≠ none ∧ managed.providerSymbol ≠ some "" then
    remote.providerSymbol = managed.providerSymbol
  else remote.symbol = some managed.symbol

def exchangeIdentityConflicts (byClient : LocalCorrelationOrder) (remote : RemoteIdentity) : Bool :=
  byClient.exchangeOrderId.any (fun id => id ≠ "" ∧ id ≠ remote.exchangeOrderId)

def symbolNamespaceConflicts (byClient : LocalCorrelationOrder) (remote : RemoteIdentity) : Bool :=
  (remote.symbol ≠ none ∧ remote.symbol ≠ some byClient.symbol) ∨
    (byClient.providerSymbol ≠ none ∧ byClient.providerSymbol ≠ some "" ∧
      remote.providerSymbol ≠ none ∧ byClient.providerSymbol ≠ remote.providerSymbol)

def clientIdentityConflicts (byClient : LocalCorrelationOrder) (remote : RemoteIdentity) : Bool :=
  exchangeIdentityConflicts byClient remote || symbolNamespaceConflicts byClient remote

/-- `local.client_order_id === remote.clientOrderId`. -/
def carriesClient (remote : RemoteIdentity) (managed : LocalCorrelationOrder) : Bool :=
  some managed.clientOrderId = remote.clientOrderId

/-- The filter of `exchangeIdentityMatch`. -/
def carriesExchange (remote : RemoteIdentity) (managed : LocalCorrelationOrder) : Bool :=
  managed.exchangeOrderId = some remote.exchangeOrderId && namespaceMatches managed remote

def clientIdentityMatch (localOrders : List LocalCorrelationOrder) (remote : RemoteIdentity) :
    Outcome (Option LocalCorrelationOrder) :=
  match localOrders.find? (carriesClient remote) with
  | none => return none
  | some byClient => do
    throwIf (clientIdentityConflicts byClient remote = true) (.error
      "Remote order client identity conflicts with its exchange identity or symbol namespace.")
    return some byClient

def exchangeIdentityMatch (localOrders : List LocalCorrelationOrder) (remote : RemoteIdentity) :
    Outcome (Option LocalCorrelationOrder) := do
  let byExchange := localOrders.filter (carriesExchange remote)
  throwIf (1 < byExchange.length)
    (.error "Remote exchange identity maps to multiple local orders.")
  return byExchange.head?

def exactIdentity (localOrders : List LocalCorrelationOrder) (remote : RemoteIdentity) :
    Outcome (Option LocalCorrelationOrder) := do
  match ← clientIdentityMatch localOrders remote with
  | some byClient => return some byClient
  | none =>
    match ← exchangeIdentityMatch localOrders remote with
    | none => return none
    | some found =>
      throwIf (remote.clientOrderId ≠ none ∧ remote.clientOrderId ≠ some found.clientOrderId)
        (.error "Remote exchange identity has a conflicting provider client identifier.")
      return some found

def ownedOrderSemanticsMatch (managed : LocalCorrelationOrder) (remote : ExchangeOrderSnapshot) :
    Outcome Bool :=
  if remote.side = managed.side ∧ remote.reduceOnly = decide (managed.reduceOnly = 1) then do
    return decide ((← compareDecimal remote.quantity managed.quantity) = 0)
  else return false

def ownedStopTriggerMatches (managed : LocalCorrelationOrder) (remote : ExchangeOrderSnapshot) :
    Outcome Bool :=
  if managed.role ≠ .stopLoss then return true
  else match remote.triggerPrice, managed.triggerPrice with
    | some theirs, some ours => do return decide ((← compareDecimal theirs ours) = 0)
    | _, _ => return false

def validateOwnedOrder (managed : LocalCorrelationOrder) (remote : ExchangeOrderSnapshot) :
    Outcome Unit := do
  throwIf ((← ownedOrderSemanticsMatch managed remote) = false)
    (.error "Remote order semantics conflict with the managed order.")
  throwIf ((← ownedStopTriggerMatches managed remote) = false)
    (.error "Remote protective trigger conflicts with the managed stop.")

def correlateRemoteOrder (localOrders : List LocalCorrelationOrder)
    (remote : ExchangeOrderSnapshot) : Outcome ExchangeOrderSnapshot := do
  match ← exactIdentity localOrders remote.identity with
  | none => return remote
  | some managed =>
    validateOwnedOrder managed remote
    return { remote with clientOrderId := some managed.clientOrderId, role := managed.role }

def correlateRemoteOrders (localOrders : List LocalCorrelationOrder)
    (remoteOrders : List ExchangeOrderSnapshot) : Outcome (List ExchangeOrderSnapshot) :=
  remoteOrders.mapM (correlateRemoteOrder localOrders)

def correlateRemoteFill (localOrders : List LocalCorrelationOrder) (remote : ExchangeFill) :
    Outcome ExchangeFill := do
  match ← exactIdentity localOrders remote with
  | none => return remote
  | some managed => return { remote with clientOrderId := some managed.clientOrderId }

def correlateRemoteFills (localOrders : List LocalCorrelationOrder)
    (remoteFills : List ExchangeFill) : Outcome (List ExchangeFill) :=
  remoteFills.mapM (correlateRemoteFill localOrders)

variable {localOrders reordered : List LocalCorrelationOrder}
  {remote : RemoteIdentity} {order other : LocalCorrelationOrder}

@[simp] theorem carriesClient_iff :
    carriesClient remote order = true ↔ remote.clientOrderId = some order.clientOrderId := by
  rw [carriesClient, decide_eq_true_iff]
  exact eq_comm

/-- The managed orders of an account: no two have one client id. -/
def DistinctClients (localOrders : List LocalCorrelationOrder) : Prop :=
  (localOrders.map LocalCorrelationOrder.clientOrderId).Nodup

theorem DistinctClients.sole (h : DistinctClients localOrders) (horder : order ∈ localOrders)
    (hother : other ∈ localOrders) (hcarries : carriesClient remote order = true)
    (hcarries' : carriesClient remote other = true) : other = order := by
  have hsame := (carriesClient_iff.mp hcarries').symm.trans (carriesClient_iff.mp hcarries)
  exact List.inj_on_of_nodup_map h hother horder (Option.some.inj hsame)

theorem find_carriesClient (h : DistinctClients localOrders) :
    localOrders.find? (carriesClient remote) = some order ↔
      order ∈ localOrders ∧ carriesClient remote order = true := by
  refine ⟨?_, ?_⟩
  · intro hfind
    exact ⟨List.mem_of_find?_eq_some hfind, List.find?_some hfind⟩
  · rintro ⟨hmem, hcarries⟩
    cases hfind : localOrders.find? (carriesClient remote) with
    | none => exact absurd hcarries (List.find?_eq_none.mp hfind order hmem)
    | some found =>
      rw [h.sole hmem (List.mem_of_find?_eq_some hfind) hcarries (List.find?_some hfind)]

section ByClient

theorem clientIdentityMatch_some (h : DistinctClients localOrders) :
    clientIdentityMatch localOrders remote = .ok (some order) ↔
      order ∈ localOrders ∧ carriesClient remote order = true ∧
        clientIdentityConflicts order remote = false := by
  rw [← and_assoc, ← find_carriesClient h]
  unfold clientIdentityMatch
  cases hfind : localOrders.find? (carriesClient remote) with
  | none => simp
  | some found =>
    simp only [bind_eq_ok, throwIf_eq_ok, pure_eq_ok_iff, exists_const, Option.some.injEq,
      Bool.not_eq_true]
    refine ⟨?_, ?_⟩
    · rintro ⟨hclear, rfl⟩
      exact ⟨rfl, hclear⟩
    · rintro ⟨rfl, hclear⟩
      exact ⟨hclear, rfl⟩

theorem clientIdentityMatch_none :
    clientIdentityMatch localOrders remote = .ok none ↔
      ∀ order ∈ localOrders, carriesClient remote order = false := by
  have hnone : localOrders.find? (carriesClient remote) = none ↔
      ∀ order ∈ localOrders, carriesClient remote order = false := by
    simp only [List.find?_eq_none, Bool.not_eq_true]
  rw [← hnone]
  unfold clientIdentityMatch
  cases hfind : localOrders.find? (carriesClient remote) with
  | none => simp
  | some found => simp

theorem clientIdentityMatch_perm (h : DistinctClients localOrders)
    (hperm : reordered.Perm localOrders) :
    clientIdentityMatch reordered remote = clientIdentityMatch localOrders remote := by
  have hdistinct : DistinctClients reordered := (hperm.map _).nodup_iff.mpr h
  have hfind : reordered.find? (carriesClient remote) =
      localOrders.find? (carriesClient remote) := by
    apply Option.ext
    intro order
    rw [find_carriesClient h, find_carriesClient hdistinct, hperm.mem_iff]
  rw [clientIdentityMatch, clientIdentityMatch, hfind]

end ByClient

section ByExchange

theorem exchangeIdentityMatch_some
    (h : exchangeIdentityMatch localOrders remote = .ok (some order)) :
    order ∈ localOrders ∧ carriesExchange remote order = true ∧
      ∀ other ∈ localOrders, carriesExchange remote other = true → other = order := by
  simp only [exchangeIdentityMatch, bind_eq_ok, throwIf_eq_ok, pure_eq_ok_iff, exists_const,
    not_lt] at h
  obtain ⟨hlen, hhead⟩ := h
  have hsingle : localOrders.filter (carriesExchange remote) = [order] := by
    cases hfilt : localOrders.filter (carriesExchange remote) with
    | nil => simp [hfilt] at hhead
    | cons first rest =>
      rw [hfilt, List.length_cons] at hlen
      rw [hfilt, List.head?_cons, Option.some.injEq] at hhead
      have hrest : rest = [] := List.length_eq_zero_iff.mp (by omega)
      rw [hrest, hhead]
  have hmem {other} : other ∈ localOrders ∧ carriesExchange remote other = true ↔
      other = order := by
    rw [← List.mem_filter, hsingle, List.mem_singleton]
  obtain ⟨horder, hcarries⟩ := hmem.mpr rfl
  exact ⟨horder, hcarries, fun other hother hcarries' => hmem.mp ⟨hother, hcarries'⟩⟩

theorem exchangeIdentityMatch_perm (hperm : reordered.Perm localOrders) :
    exchangeIdentityMatch reordered remote = exchangeIdentityMatch localOrders remote := by
  have hfilt := hperm.filter (carriesExchange remote)
  rw [exchangeIdentityMatch, exchangeIdentityMatch, hfilt.length_eq]
  by_cases hmany : 1 < (localOrders.filter (carriesExchange remote)).length
  · simp only [throwIf, if_pos hmany, error_bind]
  · -- at most one order is left, and a list of one has one arrangement
    have hsame : reordered.filter (carriesExchange remote) =
        localOrders.filter (carriesExchange remote) := by
      cases hlist : localOrders.filter (carriesExchange remote) with
      | nil => exact (hlist ▸ hfilt).eq_nil
      | cons first rest =>
        rw [hlist, List.length_cons] at hmany
        have hrest : rest = [] := List.length_eq_zero_iff.mp (by omega)
        rw [hlist, hrest] at hfilt
        rw [hrest]
        exact List.perm_singleton.mp hfilt
    rw [hsame]

/-- What the exchange id agrees on, the conflict checks of the client id agree on too. -/
theorem clientIdentityConflicts_of_carriesExchange (h : carriesExchange remote order = true) :
    clientIdentityConflicts order remote = false := by
  rw [carriesExchange, Bool.and_eq_true, decide_eq_true_iff] at h
  obtain ⟨hid, hnamespace⟩ := h
  have hexch : exchangeIdentityConflicts order remote = false := by
    simp [exchangeIdentityConflicts, hid]
  have hsym : symbolNamespaceConflicts order remote = false := by
    unfold namespaceMatches at hnamespace
    split_ifs at hnamespace with hother hprov
    · rw [decide_eq_true_iff] at hnamespace
      rw [symbolNamespaceConflicts, decide_eq_false_iff_not]
      rintro (hsym | ⟨-, -, -, hprovided⟩)
      · exact hother hsym
      · exact hprovided hnamespace.symm
    · rw [symbolNamespaceConflicts, decide_eq_false_iff_not]
      rintro (hsym | ⟨hnone, hempty, -⟩)
      · exact hother hsym
      · exact hprov ⟨hnone, hempty⟩
  rw [clientIdentityConflicts, hexch, hsym, Bool.or_false]

end ByExchange

/-- An order is found by its client id, or it is the only one with the exchange id and no order
has the client id. -/
theorem exactIdentity_some
    (h : exactIdentity localOrders remote = .ok (some order)) :
    clientIdentityMatch localOrders remote = .ok (some order) ∨
      (clientIdentityMatch localOrders remote = .ok none ∧
        exchangeIdentityMatch localOrders remote = .ok (some order)) := by
  rw [exactIdentity, bind_eq_ok] at h
  obtain ⟨byClient, hclient, h⟩ := h
  cases byClient with
  | some found =>
    obtain rfl := Option.some.inj (pure_eq_ok_iff.mp h)
    exact Or.inl hclient
  | none =>
    simp only [bind_eq_ok] at h
    obtain ⟨byExchange, hexch, h⟩ := h
    cases byExchange with
    | none => cases pure_eq_ok_iff.mp h
    | some found =>
      simp only [bind_eq_ok, pure_eq_ok_iff] at h
      obtain ⟨-, -, hfound⟩ := h
      obtain rfl := Option.some.inj hfound
      exact Or.inr ⟨hclient, hexch⟩

theorem exactIdentity_of_client
    (h : clientIdentityMatch localOrders remote = .ok (some order)) :
    exactIdentity localOrders remote = .ok (some order) := by
  rw [exactIdentity, h]
  rfl

theorem exactIdentity_perm (h : DistinctClients localOrders)
    (hperm : reordered.Perm localOrders) :
    exactIdentity reordered remote = exactIdentity localOrders remote := by
  rw [exactIdentity, exactIdentity, clientIdentityMatch_perm h hperm,
    exchangeIdentityMatch_perm hperm]

theorem exactIdentity_again (hdistinct : DistinctClients localOrders)
    (h : exactIdentity localOrders remote = .ok (some order)) :
    exactIdentity localOrders { remote with clientOrderId := some order.clientOrderId } =
      .ok (some order) := by
  apply exactIdentity_of_client
  rw [clientIdentityMatch_some hdistinct]
  rcases exactIdentity_some h with hclient | ⟨-, hexch⟩
  · obtain ⟨hmem, -, hclear⟩ := (clientIdentityMatch_some hdistinct).mp hclient
    exact ⟨hmem, carriesClient_iff.mpr rfl, hclear⟩
  · obtain ⟨hmem, hcarries, -⟩ := exchangeIdentityMatch_some hexch
    exact ⟨hmem, carriesClient_iff.mpr rfl, clientIdentityConflicts_of_carriesExchange hcarries⟩

section Again

theorem correlateRemoteOrder_again (hdistinct : DistinctClients localOrders)
    {remote result : ExchangeOrderSnapshot}
    (h : correlateRemoteOrder localOrders remote = .ok result) :
    correlateRemoteOrder localOrders result = .ok result := by
  have hrun := h
  rw [correlateRemoteOrder, bind_eq_ok] at h
  obtain ⟨matched, hmatch, h⟩ := h
  cases matched with
  | none =>
    obtain rfl := pure_eq_ok_iff.mp h
    exact hrun
  | some order =>
    simp only [bind_eq_ok, pure_eq_ok_iff] at h
    obtain ⟨u, hvalid, rfl⟩ := h
    have hsame := exactIdentity_again hdistinct hmatch
    rw [correlateRemoteOrder, bind_eq_ok]
    refine ⟨some order, hsame, ?_⟩
    rw [bind_eq_ok]
    exact ⟨u, hvalid, rfl⟩

theorem correlateRemoteFill_again (hdistinct : DistinctClients localOrders)
    {result : ExchangeFill} (h : correlateRemoteFill localOrders remote = .ok result) :
    correlateRemoteFill localOrders result = .ok result := by
  have hrun := h
  rw [correlateRemoteFill, bind_eq_ok] at h
  obtain ⟨matched, hmatch, h⟩ := h
  cases matched with
  | none =>
    obtain rfl := pure_eq_ok_iff.mp h
    exact hrun
  | some order =>
    obtain rfl := pure_eq_ok_iff.mp h
    rw [correlateRemoteFill, bind_eq_ok]
    exact ⟨some order, exactIdentity_again hdistinct hmatch, rfl⟩

theorem mapM_again {α : Type} {f : α → Outcome α} (hf : ∀ a b, f a = .ok b → f b = .ok b)
    {as bs : List α} (h : as.mapM f = .ok bs) : bs.mapM f = .ok bs := by
  rw [mapM_eq_ok] at h ⊢
  induction h with
  | nil => exact .nil
  | cons hhead htail ih => exact .cons (hf _ _ hhead) ih

end Again

/-- Every other order has another client id, and another exchange id or symbol namespace. -/
def Unambiguous (localOrders : List LocalCorrelationOrder) (remote : RemoteIdentity) : Prop :=
  ∀ order, exactIdentity localOrders remote = .ok (some order) →
    ∀ other ∈ localOrders, other ≠ order →
      remote.clientOrderId ≠ some other.clientOrderId ∧
        ¬ (other.exchangeOrderId = some remote.exchangeOrderId ∧
          namespaceMatches other remote = true)

/-- An order with the client id and without a conflict is the only one that may have the
exchange id. -/
def ExchangeAgrees (localOrders : List LocalCorrelationOrder) (remote : RemoteIdentity) : Prop :=
  ∀ order ∈ localOrders, remote.clientOrderId = some order.clientOrderId →
    clientIdentityConflicts order remote = false →
      ∀ other ∈ localOrders, other.exchangeOrderId = some remote.exchangeOrderId →
        namespaceMatches other remote = true → other = order

theorem unambiguous_iff (hdistinct : DistinctClients localOrders) :
    Unambiguous localOrders remote ↔ ExchangeAgrees localOrders remote := by
  refine ⟨?_, ?_⟩
  · intro h order hmem hclient hclear other hother hid hnamespace
    by_contra hne
    have hmatch := (clientIdentityMatch_some hdistinct).mpr
      ⟨hmem, carriesClient_iff.mpr hclient, hclear⟩
    exact (h order (exactIdentity_of_client hmatch) other hother hne).2 ⟨hid, hnamespace⟩
  · intro h order hexact other hother hne
    rcases exactIdentity_some hexact with hclient | ⟨hnone, hexch⟩
    · obtain ⟨hmem, hcarries, hclear⟩ := (clientIdentityMatch_some hdistinct).mp hclient
      refine ⟨?_, ?_⟩
      · intro hsame
        exact hne (hdistinct.sole hmem hother hcarries (carriesClient_iff.mpr hsame))
      · rintro ⟨hid, hnamespace⟩
        exact hne (h order hmem (carriesClient_iff.mp hcarries) hclear other hother hid hnamespace)
    · obtain ⟨-, -, hsole⟩ := exchangeIdentityMatch_some hexch
      refine ⟨?_, ?_⟩
      · intro hsame
        have hcarries := clientIdentityMatch_none.mp hnone other hother
        rw [carriesClient_iff.mpr hsame] at hcarries
        cases hcarries
      · rintro ⟨hid, hnamespace⟩
        apply hne (hsole other hother _)
        rw [carriesExchange, hnamespace, Bool.and_true, decide_eq_true_iff]
        exact hid

/-- The order found is the only one that the remote identity may mean exactly when the order with
its client id is also the one with its exchange id; the order of the list never matters, and a
second correlation changes nothing. -/
theorem correlation_unambiguous (localOrders : List LocalCorrelationOrder)
    (hdistinct : DistinctClients localOrders) :
    (∀ remote, Unambiguous localOrders remote ↔ ExchangeAgrees localOrders remote) ∧
      (∀ reordered, reordered.Perm localOrders → ∀ remote,
        exactIdentity reordered remote = exactIdentity localOrders remote) ∧
      (∀ remoteOrders result, correlateRemoteOrders localOrders remoteOrders = .ok result →
        correlateRemoteOrders localOrders result = .ok result) ∧
      ∀ remoteFills result, correlateRemoteFills localOrders remoteFills = .ok result →
        correlateRemoteFills localOrders result = .ok result := by
  refine ⟨?_, ?_, ?_, ?_⟩
  · intro remote
    exact unambiguous_iff hdistinct
  · intro reordered hperm remote
    exact exactIdentity_perm hdistinct hperm
  · intro remoteOrders result h
    exact mapM_again (fun _ _ => correlateRemoteOrder_again hdistinct) h
  · intro remoteFills result h
    exact mapM_again (fun _ _ => correlateRemoteFill_again hdistinct) h

def submittedEntry : LocalCorrelationOrder :=
  { clientOrderId := "a", exchangeOrderId := none, providerSymbol := none, symbol := "BTC/USDT"
    role := .entry, side := "buy", quantity := "1", reduceOnly := 0, triggerPrice := none }

/-- Another entry of the account, known under the exchange id `X`. -/
def acceptedEntry : LocalCorrelationOrder :=
  { submittedEntry with clientOrderId := "b", exchangeOrderId := some "X" }

theorem correlation_unambiguous_entries :
    DistinctClients [submittedEntry, acceptedEntry] ∧
      (Unambiguous [submittedEntry, acceptedEntry] ⟨some "b", "X", some "BTC/USDT", none⟩ ↔
        ExchangeAgrees [submittedEntry, acceptedEntry] ⟨some "b", "X", some "BTC/USDT", none⟩) := by
  have hdistinct : DistinctClients [submittedEntry, acceptedEntry] := by
    rw [DistinctClients]
    decide
  exact ⟨hdistinct, (correlation_unambiguous _ hdistinct).1 _⟩

/-- The client id finds the first entry although the exchange id is that of the second. -/
theorem clientIdentity_of_other_exchange :
    DistinctClients [submittedEntry, acceptedEntry] ∧
      exactIdentity [submittedEntry, acceptedEntry] ⟨some "a", "X", some "BTC/USDT", none⟩ =
        .ok (some submittedEntry) ∧
      acceptedEntry.exchangeOrderId = some "X" ∧
      namespaceMatches acceptedEntry ⟨some "a", "X", some "BTC/USDT", none⟩ = true ∧
      ¬ Unambiguous [submittedEntry, acceptedEntry] ⟨some "a", "X", some "BTC/USDT", none⟩ := by
  have hfound : exactIdentity [submittedEntry, acceptedEntry]
      ⟨some "a", "X", some "BTC/USDT", none⟩ = .ok (some submittedEntry) := by rfl
  have hcarried : namespaceMatches acceptedEntry ⟨some "a", "X", some "BTC/USDT", none⟩ = true := by
    decide
  refine ⟨?_, hfound, rfl, hcarried, ?_⟩
  · rw [DistinctClients]
    decide
  · intro h
    exact (h _ hfound acceptedEntry (by simp) (by decide)).2 ⟨rfl, hcarried⟩

end TsxCore.ExchangeOrderCorrelation
