import TsxCore.CharacterTexts
import TsxCore.WorkflowGraph

/-!
# The builder history (`workflow_repository.ts`)

A revision stores the graph that `validateGraph` returned, and an undo or a redo
validates the stored graph again. On graphs of its own making the validation
changes nothing, so that the two stacks of revision identifiers are a list of
graphs with a cursor in it.
-/

namespace TsxCore.Workflow

open Outcome

section Stability

variable {localeLe : String → String → Bool}

theorem trim_trim (value : String) : trim (trim value) = trim value := by
  have htrim : ∀ value, trim value = .ofList (Characters.trimmed value.toList) := fun _ => rfl
  rw [htrim (trim value), htrim value, String.toList_ofList, Characters.trimmed_trimmed]

theorem mem_of_mem_trim {value : String} {c : Char} (h : c ∈ (trim value).toList) :
    c ∈ value.toList := by
  rw [trim, String.toList_ofList] at h
  exact (List.dropWhile_suffix _).subset ((List.rdropWhile_prefix _ _).subset h)

theorem stringValue_again {value label s : String} {maximum : ℕ}
    (h : stringValue value label maximum = .ok s) : stringValue s label maximum = .ok s := by
  simp only [stringValue, bind_eq_ok, throwIf_eq_ok, pure_eq_ok_iff, not_or] at h
  obtain ⟨-, ⟨hne, hlen, hbreaks⟩, rfl⟩ := h
  rw [stringValue, trim_trim, throwIf_of_not, ok_bind]
  · rfl
  · rw [not_or, not_or]
    refine ⟨hne, hlen, ?_⟩
    simp only [List.any_eq_true, not_exists, not_and] at hbreaks ⊢
    exact fun c hc => hbreaks c (mem_of_mem_trim hc)

theorem stringArray_again {values ids ids' : List String} {label : String} {maximum : ℕ}
    (h : stringArray values label maximum = .ok ids) (hperm : ids'.Perm ids) :
    stringArray ids' label maximum = .ok ids' := by
  simp only [stringArray, bind_eq_ok, throwIf_eq_ok, pure_eq_ok_iff, not_lt, not_not] at h
  obtain ⟨-, hlen, -, hnodup, rfl⟩ := h
  have htexts : ∀ id ∈ ids', trim id = id ∧ id ≠ "" := by
    intro id hid
    obtain ⟨hmem, hne⟩ := List.mem_filter.mp (hperm.mem_iff.mp hid)
    obtain ⟨value, -, rfl⟩ := List.mem_map.mp hmem
    exact ⟨trim_trim value, by simpa using hne⟩
  have hsame : (ids'.map trim).filter (· ≠ "") = ids' := by
    rw [List.map_congr_left (g := id) (fun id hid => (htexts id hid).1), List.map_id,
      List.filter_eq_self]
    exact fun id hid => by simpa using (htexts id hid).2
  have hle : ids'.length ≤ maximum := by
    refine (hperm.length_eq.trans_le (List.length_filter_le _ _)).trans ?_
    rwa [List.length_map]
  simp only [stringArray, throwIf_of_not (not_lt.mpr hle), ok_bind, hsame,
    throwIf_of_not (not_not.mpr (hperm.nodup_iff.mpr hnodup))]
  rfl

def EdgeKind.text : EdgeKind → String
  | .flow => "flow"
  | .accountFallback => "account_fallback"

def WorkflowNode.candidate (node : WorkflowNode) : NodeCandidate :=
  ⟨node.id, node.kind.text, node.resourceVersionId, some node.position.x, some node.position.y⟩

def WorkflowEdge.candidate (edge : WorkflowEdge) : EdgeCandidate where
  id := edge.id
  source := edge.source
  target := edge.target
  kind := edge.kind.map EdgeKind.text
  channelNodeIds := edge.channelNodeIds
  fallbackOn := edge.fallbackOn.map (·.map WorkflowFallbackReason.text)

/-- The stored graph, as the validation reads it. -/
def WorkflowGraph.candidate (graph : WorkflowGraph) : GraphCandidate :=
  ⟨graph.schemaVersion, graph.nodes.map (·.candidate), graph.edges.map (·.candidate)⟩

section Placement

variable {nodes : List WorkflowNode} {node : WorkflowNode} {kind : WorkflowResourceKind}

theorem normalizeWorkflowNode_again {before : List WorkflowNode} {candidate : NodeCandidate}
    (h : normalizeWorkflowNode before candidate = .ok node) :
    normalizeWorkflowNode (before.map (WorkflowNode.placed localeLe nodes))
      (node.placed localeLe nodes).candidate = .ok (node.placed localeLe nodes) := by
  unfold normalizeWorkflowNode at h
  simp only [bind_eq_ok, throwIf_eq_ok] at h
  obtain ⟨id, hid, -, hnew, h⟩ := h
  split at h
  · cases h
  · rename_i kind hkind
    split at h
    · simp only [bind_eq_ok, pure_eq_ok_iff] at h
      obtain ⟨version, hver, rfl⟩ := h
      have hsame : resourceKind kind.text = some kind := by cases kind <;> rfl
      have hfresh : ¬ (isIdentifier id = false ∨
          (before.map (WorkflowNode.placed localeLe nodes)).any (·.id = id) = true) := by
        rw [List.any_map]
        exact hnew
      simp only [normalizeWorkflowNode, WorkflowNode.candidate, WorkflowNode.placed,
        stringValue_again hid, ok_bind, throwIf_of_not hfresh, hsame, stringValue_again hver]
      rfl
    · cases h

theorem nodup_columnOf (h : (nodes.map (·.id)).Nodup) :
    ((columnOf localeLe nodes kind).map (·.id)).Nodup := by
  have hperm := (List.perm_insertionSort (fun left right => above localeLe left right = true)
    (nodes.filter (fun node => node.kind = kind))).map (·.id)
  exact hperm.nodup_iff.mpr (h.sublist (List.filter_sublist.map _))

theorem kind_of_mem_columnOf (h : node ∈ columnOf localeLe nodes kind) : node.kind = kind := by
  rw [columnOf, List.mem_insertionSort, List.mem_filter, decide_eq_true_eq] at h
  exact h.2

theorem row_of_mem_columnOf (h : node ∈ columnOf localeLe nodes kind) :
    (node.placed localeLe nodes).position.y =
      (((columnOf localeLe nodes kind).map (·.id)).idxOf node.id : ℕ) * WORKFLOW_ROW_GAP := by
  rw [WorkflowNode.placed, kind_of_mem_columnOf h]

theorem eq_of_row {other : WorkflowNode} (hnodup : (nodes.map (·.id)).Nodup)
    (hnode : node ∈ columnOf localeLe nodes kind) (hother : other ∈ columnOf localeLe nodes kind)
    (h : (node.placed localeLe nodes).position.y = (other.placed localeLe nodes).position.y) :
    node = other := by
  rw [row_of_mem_columnOf hnode, row_of_mem_columnOf hother, WORKFLOW_ROW_GAP] at h
  have hindex : ((columnOf localeLe nodes kind).map (·.id)).idxOf node.id =
      ((columnOf localeLe nodes kind).map (·.id)).idxOf other.id := by
    exact_mod_cast mul_right_cancel₀ (by norm_num) h
  have hids := (List.idxOf_inj (List.mem_map_of_mem hnode)).mp hindex
  exact List.inj_on_of_nodup_map (nodup_columnOf hnodup) hnode hother hids

/-- In their column the placed nodes stand in the order of their rows. -/
theorem pairwise_placed (h : (nodes.map (·.id)).Nodup) :
    ((columnOf localeLe nodes kind).map (WorkflowNode.placed localeLe nodes)).Pairwise
      (fun left right => above localeLe left right = true) := by
  have hnodup := @nodup_columnOf localeLe nodes kind h
  rw [List.pairwise_map, List.pairwise_iff_getElem]
  intro i j hi hj hlt
  have hindex : ∀ {k : ℕ} (hk : k < (columnOf localeLe nodes kind).length),
      ((columnOf localeLe nodes kind)[k].placed localeLe nodes).position.y =
        k * WORKFLOW_ROW_GAP := by
    intro k hk
    have hat := hnodup.idxOf_getElem k (by rwa [List.length_map])
    rw [List.getElem_map] at hat
    rw [row_of_mem_columnOf (List.getElem_mem hk), hat]
  have hrow : (i : ℚ) * WORKFLOW_ROW_GAP < j * WORKFLOW_ROW_GAP := by
    rw [WORKFLOW_ROW_GAP]
    exact mul_lt_mul_of_pos_right (by exact_mod_cast hlt) (by norm_num)
  simp [above, hindex hi, hindex hj, hrow]

variable (htotal : Std.Total (fun left right => localeLe left right = true))
  (htrans : IsTrans String (fun left right => localeLe left right = true))

include htotal htrans in
theorem columnOf_placedNodes (h : (nodes.map (·.id)).Nodup) :
    columnOf localeLe (placedNodes localeLe nodes) kind =
      (columnOf localeLe nodes kind).map (WorkflowNode.placed localeLe nodes) := by
  have habove : Std.Total (fun left right => above localeLe left right = true) := by
    refine ⟨fun left right => ?_⟩
    have hids := htotal.total left.id right.id
    simp only [above, Bool.or_eq_true, Bool.and_eq_true, decide_eq_true_eq]
    rcases lt_trichotomy left.position.y right.position.y with hlt | heq | hgt
    · exact .inl (.inl hlt)
    · exact hids.imp (fun hle => .inr ⟨heq, hle⟩) (fun hle => .inr ⟨heq.symm, hle⟩)
    · exact .inr (.inl hgt)
  have hchain : IsTrans WorkflowNode (fun left right => above localeLe left right = true) := by
    refine ⟨fun left middle right hfirst hsecond => ?_⟩
    simp only [above, Bool.or_eq_true, Bool.and_eq_true, decide_eq_true_eq] at hfirst hsecond ⊢
    rcases hfirst with hlt | ⟨heq, hle⟩
    · exact hsecond.elim (fun hlt' => .inl (hlt.trans hlt')) (fun hsnd => .inl (hsnd.1 ▸ hlt))
    · exact hsecond.imp (fun hlt' => heq ▸ hlt')
        (fun hsnd => ⟨heq.trans hsnd.1, htrans.trans _ _ _ hle hsnd.2⟩)
  have hfilter : (placedNodes localeLe nodes).filter (fun node => node.kind = kind) =
      (nodes.filter (fun node => node.kind = kind)).map (WorkflowNode.placed localeLe nodes) := by
    rw [placedNodes, List.filter_map]
    rfl
  have hperm : (columnOf localeLe (placedNodes localeLe nodes) kind).Perm
      ((columnOf localeLe nodes kind).map (WorkflowNode.placed localeLe nodes)) := by
    rw [columnOf, hfilter]
    exact (List.perm_insertionSort _ _).trans ((List.perm_insertionSort _ _).map _).symm
  refine @List.Perm.eq_of_pairwise _ (fun left right => above localeLe left right = true) _ _ ?_
    (List.pairwise_insertionSort _ _) (pairwise_placed h) hperm
  intro left right hleft hright hle hge
  obtain ⟨node, hnode, rfl⟩ := List.mem_map.mp (hperm.mem_iff.mp hleft)
  obtain ⟨other, hother, rfl⟩ := List.mem_map.mp hright
  simp only [above, Bool.or_eq_true, Bool.and_eq_true, decide_eq_true_eq] at hle hge
  rw [eq_of_row h hnode hother (by
    rcases hle with hlt | ⟨heq, -⟩
    · rcases hge with hgt | ⟨heq, -⟩
      · exact absurd hlt hgt.asymm
      · exact heq.symm
    · exact heq)]

include htotal htrans in
/-- Placed nodes stay where they are. -/
theorem placedNodes_again (h : (nodes.map (·.id)).Nodup) :
    placedNodes localeLe (placedNodes localeLe nodes) = placedNodes localeLe nodes := by
  change (nodes.map (WorkflowNode.placed localeLe nodes)).map _ =
    nodes.map (WorkflowNode.placed localeLe nodes)
  rw [List.map_map]
  apply List.map_congr_left
  intro node _
  have hcolumn := @columnOf_placedNodes localeLe nodes node.kind htotal htrans h
  have hids : (columnOf localeLe (placedNodes localeLe nodes) node.kind).map (·.id) =
      (columnOf localeLe nodes node.kind).map (·.id) := by
    rw [hcolumn, List.map_map]
    rfl
  simp only [Function.comp_apply, WorkflowNode.placed] at hids ⊢
  rw [hids]

end Placement

theorem workflowEdgeKind_again {kind : Option String} {id : String} {schemaVersion : ℤ}
    {k : Option EdgeKind} (h : workflowEdgeKind kind id schemaVersion = .ok k) :
    workflowEdgeKind (k.map EdgeKind.text) id schemaVersion = .ok k := by
  simp only [workflowEdgeKind, bind_eq_ok, throwIf_eq_ok] at h
  obtain ⟨-, hreq, -, hunavailable, h⟩ := h
  have hsame : k.map EdgeKind.text = if kind = some "flow" ∨ kind = some "account_fallback"
    then kind
      else none := by
    split_ifs at h with hflow hfb
    · obtain rfl := pure_eq_ok_iff.mp h
      simp [hflow, EdgeKind.text]
    · obtain rfl := pure_eq_ok_iff.mp h
      simp [hfb, EdgeKind.text]
    · obtain rfl := pure_eq_ok_iff.mp h
      simp [hflow, hfb]
  rw [workflowEdgeKind, throwIf_of_not, ok_bind, throwIf_of_not, ok_bind]
  · cases k with
    | none => rfl
    | some k => cases k <;> rfl
  · rw [hsame]
    split_ifs with hknown
    · exact hunavailable
    · simp
  · rw [hsame]
    split_ifs with hknown
    · exact hreq
    · rw [not_or] at hknown
      exact fun hver => hreq ⟨hver.1, hknown⟩

theorem fallbackReason_text (reason : WorkflowFallbackReason) :
    fallbackReason reason.text = some reason := by
  cases reason <;> rfl

theorem fallbackPolicy_again {fallbackOn : Option (List String)} {id : String}
    {kind : Option EdgeKind} {schemaVersion : ℤ} {policy : Option (List WorkflowFallbackReason)}
    (h : workflowEdgeFallbackPolicy fallbackOn id kind schemaVersion = .ok policy) :
    workflowEdgeFallbackPolicy (policy.map (·.map WorkflowFallbackReason.text)) id kind
      schemaVersion = .ok policy := by
  unfold workflowEdgeFallbackPolicy at h ⊢
  split_ifs at h ⊢ with hkind hver
  · simp only [bind_eq_ok, throwIf_eq_ok, pure_eq_ok_iff] at h
    obtain ⟨-, -, rfl⟩ := h
    rfl
  · simp only [bind_eq_ok, throwIf_eq_ok, pure_eq_ok_iff] at h
    obtain ⟨-, -, rfl⟩ := h
    rfl
  · simp only [bind_eq_ok, throwIf_eq_ok, pure_eq_ok_iff] at h
    obtain ⟨-, hlen, -, hknown, -, hnodup, rfl⟩ := h
    have hvals : ∀ value ∈ fallbackOn.getD [],
        (fallbackReason value).map WorkflowFallbackReason.text = some value := by
      intro value hvalue
      cases hrsn : fallbackReason value with
      | none => exact absurd (List.any_eq_true.mpr ⟨value, hvalue, by simp [hrsn]⟩) hknown
      | some reason => simpa [fallbackReason] using List.find?_some hrsn
    have htexts : ((fallbackOn.getD []).filterMap fallbackReason).map WorkflowFallbackReason.text =
        fallbackOn.getD [] := by
      rw [List.map_filterMap, List.filterMap_congr hvals, List.filterMap_some]
    rw [← htexts] at hlen hnodup
    generalize (fallbackOn.getD []).filterMap fallbackReason = reasons at hlen hnodup ⊢
    have hperm : (canonicalWorkflowFallbackPolicy reasons).Perm reasons :=
      List.perm_insertionSort _ _
    have hsort : canonicalWorkflowFallbackPolicy (canonicalWorkflowFallbackPolicy reasons) =
        canonicalWorkflowFallbackPolicy reasons := by
      have htotal : Std.Total (fun left right : WorkflowFallbackReason =>
          WORKFLOW_FALLBACK_REASONS.idxOf left ≤ WORKFLOW_FALLBACK_REASONS.idxOf right) :=
        ⟨fun _ _ => le_total _ _⟩
      have htrans : IsTrans WorkflowFallbackReason (fun left right =>
          WORKFLOW_FALLBACK_REASONS.idxOf left ≤ WORKFLOW_FALLBACK_REASONS.idxOf right) :=
        ⟨fun _ _ _ => le_trans⟩
      exact (List.pairwise_insertionSort _ reasons).insertionSort_eq
    generalize canonicalWorkflowFallbackPolicy reasons = policy at hperm hsort ⊢
    have hmap := hperm.map WorkflowFallbackReason.text
    have hfilt : (policy.map WorkflowFallbackReason.text).filterMap fallbackReason = policy := by
      rw [List.filterMap_map, show fallbackReason ∘ WorkflowFallbackReason.text = some from
        funext fallbackReason_text, List.filterMap_some]
    simp only [Option.map_some, Option.getD_some]
    rw [throwIf_of_not (hmap.length_eq ▸ hlen), ok_bind, throwIf_of_not, ok_bind,
      throwIf_of_not (not_not.mpr (hmap.nodup_iff.mpr (not_not.mp hnodup))), ok_bind, hfilt, hsort]
    · rfl
    · simp [fallbackReason_text]

variable (htotal : Std.Total (fun left right => localeLe left right = true))
  (htrans : IsTrans String (fun left right => localeLe left right = true))

include htotal htrans in
theorem channelScope_again {channelNodeIds scope : Option (List String)} {id : String}
    {nodes : List WorkflowNode} {kind : Option EdgeKind}
    (h : workflowEdgeChannelScope localeLe channelNodeIds id nodes kind = .ok scope) :
    workflowEdgeChannelScope localeLe scope id nodes kind = .ok scope := by
  cases channelNodeIds with
  | none =>
    have hnone := h
    simp only [workflowEdgeChannelScope, bind_eq_ok, pure_eq_ok_iff] at h
    obtain ⟨-, -, rfl⟩ := h
    exact hnone
  | some value =>
    simp only [workflowEdgeChannelScope, bind_eq_ok, throwIf_eq_ok, pure_eq_ok_iff] at h
    obtain ⟨ids, hids, -, hidrs, -, hchannels, rfl⟩ := h
    have hperm : (ids.insertionSort (fun left right => localeLe left right = true)).Perm ids :=
      List.perm_insertionSort _ _
    have hsort := (List.pairwise_insertionSort
      (fun left right => localeLe left right = true) ids).insertionSort_eq
    simp only [workflowEdgeChannelScope, stringArray_again hids hperm, ok_bind]
    rw [throwIf_of_not, ok_bind, throwIf_of_not, ok_bind, hsort]
    · rfl
    · rwa [hperm.any_eq]
    · rwa [hperm.any_eq, ← List.isEmpty_iff, hperm.isEmpty_eq, List.isEmpty_iff]

include htotal htrans in
theorem normalizeWorkflowEdge_again {schemaVersion : ℤ} {nodes : List WorkflowNode}
    {before : List WorkflowEdge} {candidate : EdgeCandidate} {edge : WorkflowEdge}
    (h : normalizeWorkflowEdge localeLe schemaVersion nodes before candidate = .ok edge) :
    normalizeWorkflowEdge localeLe schemaVersion nodes before edge.candidate = .ok edge := by
  simp only [normalizeWorkflowEdge, bind_eq_ok, throwIf_eq_ok, pure_eq_ok_iff] at h
  obtain ⟨id, hid, source, hsrc, target, htgt, kind, hkind, -, hnew, -, hends, -, haccs,
    scope, hscope, policy, hpol, rfl⟩ := h
  simp only [normalizeWorkflowEdge, WorkflowEdge.candidate, stringValue_again hid,
    stringValue_again hsrc, stringValue_again htgt, workflowEdgeKind_again hkind, ok_bind,
    throwIf_of_not hnew, throwIf_of_not hends, throwIf_of_not haccs,
    channelScope_again htotal htrans hscope, fallbackPolicy_again hpol]
  rfl

/-- A loop that appends what each round made of a candidate, run again on what was made of
that. -/
theorem foldlM_append_again {α β γ δ : Type} {f : List β → α → Outcome β}
    {k : List δ → γ → Outcome δ} {p : β → δ} {g : δ → γ}
    (hstep : ∀ bs a b, f bs a = .ok b → k (bs.map p) (g (p b)) = .ok (p b)) {as : List α}
    {start result : List β}
    (h : as.foldlM (fun bs a => do pure (bs ++ [← f bs a])) start = .ok result) :
    ∃ made, result = start ++ made ∧ made.length = as.length ∧
      ((made.map p).map g).foldlM (fun bs c => do pure (bs ++ [← k bs c])) (start.map p) =
        .ok (result.map p) := by
  induction as generalizing start with
  | nil =>
    cases h
    exact ⟨[], by simp, rfl, rfl⟩
  | cons a as ih =>
    simp only [List.foldlM_cons, bind_eq_ok, pure_eq_ok_iff] at h
    obtain ⟨_, ⟨b, hb, rfl⟩, hrest⟩ := h
    obtain ⟨made, rfl, hlen, hagain⟩ := ih hrest
    refine ⟨b :: made, by simp, by simp [hlen], ?_⟩
    rw [List.map_append, List.map_singleton] at hagain
    simp only [List.map_cons, List.foldlM_cons, hstep start a b hb, ok_bind, pure_bind]
    exact hagain

include htotal htrans in
theorem validateGraph_again {value : GraphCandidate} {graph : WorkflowGraph}
    (h : validateGraph localeLe value = .ok graph) :
    validateGraph localeLe graph.candidate = .ok graph := by
  have hnodup := (validateGraph_valid h).nodes
  simp only [validateGraph, bind_eq_ok, throwIf_eq_ok, pure_eq_ok_iff] at h
  obtain ⟨-, hver, -, hsize, nodes, hnodes, edges, hedges, rfl⟩ := h
  rw [map_id_placedNodes] at hnodup
  obtain ⟨made, hmade, hcount, hagain⟩ := foldlM_append_again (k := normalizeWorkflowNode)
    (p := WorkflowNode.placed localeLe nodes)
    (fun _ _ _ => normalizeWorkflowNode_again) hnodes
  obtain ⟨drawn, hdrawn, hcount', hagain'⟩ := foldlM_append_again
    (k := normalizeWorkflowEdge localeLe value.schemaVersion (placedNodes localeLe nodes))
    (p := id) (g := WorkflowEdge.candidate) (fun bs _ _ hedge => by
      rw [List.map_id]
      exact normalizeWorkflowEdge_again htotal htrans hedge) hedges
  rw [List.nil_append] at hmade hdrawn
  subst hmade hdrawn
  have hplaced : ((placedNodes localeLe nodes).map (·.candidate)).foldlM (fun nodes candidate => do
      pure (nodes ++ [← normalizeWorkflowNode nodes candidate])) [] =
        .ok (placedNodes localeLe nodes) := hagain
  simp only [List.map_id] at hagain'
  rw [validateGraph, throwIf_of_not (by exact hver), ok_bind, throwIf_of_not (by
    simpa only [WorkflowGraph.candidate, placedNodes, List.length_map, hcount, hcount']
      using hsize), ok_bind]
  simp only [WorkflowGraph.candidate, hplaced, ok_bind, placedNodes_again htotal htrans hnodup,
    hagain']
  rfl

end Stability

section Timeline

variable {α : Type} {limit : ℕ}

/-- A list of values with a cursor: what an undo leads to, latest last, the value shown, and what
a redo leads to, next first. -/
structure Timeline (α : Type) where
  past : List α
  present : α
  future : List α

inductive Edit (α : Type)
  | record (value : α)
  | replace (value : α)
  | reset (value : α)
  | undo
  | redo

/-- The last `limit` elements. -/
def lastOf (limit : ℕ) (as : List α) : List α := as.drop (as.length - limit)

def Timeline.apply (limit : ℕ) (t : Timeline α) : Edit α → Timeline α
  | .record value => ⟨lastOf limit (t.past ++ [t.present]), value, []⟩
  | .replace value => { t with present := value }
  | .reset value => ⟨[], value, []⟩
  | .undo =>
    match t.past.getLast? with
    | none => t
    | some value => ⟨t.past.dropLast, value, t.present :: t.future⟩
  | .redo =>
    match t.future with
    | [] => t
    | value :: future => ⟨t.past ++ [t.present], value, future⟩

theorem lastOf_of_le {as : List α} (h : as.length ≤ limit) : lastOf limit as = as := by
  rw [lastOf, Nat.sub_eq_zero_of_le h, List.drop_zero]

theorem length_lastOf_le (as : List α) : (lastOf limit as).length ≤ limit := by
  rw [lastOf, List.length_drop]
  omega

end Timeline

section History

def WORKFLOW_BUILDER_HISTORY_LIMIT : ℕ := 5

def EMPTY_WORKFLOW_GRAPH : WorkflowGraph := ⟨1, [], []⟩

structure WorkflowHistoryEntry where
  revisionId : Option String
  label : String
  capturedAt : ℤ

structure WorkflowHistoryState where
  undo : List WorkflowHistoryEntry
  redo : List WorkflowHistoryEntry

/-- The graphs of the stored revisions, the active revision and the history. -/
structure Builder where
  revisions : List (String × WorkflowGraph)
  activeId : Option String
  history : WorkflowHistoryState

inductive WorkflowHistoryMode
  | record (label : String)
  | ignore
  | reset

inductive WorkflowHistoryDirection
  | undo
  | redo

def WorkflowHistoryState.stack (history : WorkflowHistoryState) :
    WorkflowHistoryDirection → List WorkflowHistoryEntry
  | .undo => history.undo
  | .redo => history.redo

/-- `direction.toUpperCase()`. -/
def WorkflowHistoryDirection.upper : WorkflowHistoryDirection → String
  | .undo => "UNDO"
  | .redo => "REDO"

namespace Builder

/-- `[...stack, entry].slice(-WORKFLOW_BUILDER_HISTORY_LIMIT)`. -/
def pushWorkflowHistoryEntry (stack : List WorkflowHistoryEntry) (entry : WorkflowHistoryEntry) :
    List WorkflowHistoryEntry :=
  lastOf WORKFLOW_BUILDER_HISTORY_LIMIT (stack ++ [entry])

def writeWorkflowBuilderHistory (s : Builder) (history : WorkflowHistoryState) :
    Outcome Builder := do
  throwIf (WORKFLOW_BUILDER_HISTORY_LIMIT < history.undo.length)
    (.error "Workflow builder history undo must contain at most 5 entries.")
  throwIf (WORKFLOW_BUILDER_HISTORY_LIMIT < history.redo.length)
    (.error "Workflow builder history redo must contain at most 5 entries.")
  return { s with history }

def workflowHistoryTarget (localeLe : String → String → Bool) (s : Builder)
    (entry : WorkflowHistoryEntry) : Outcome WorkflowGraph :=
  match entry.revisionId with
  | none => return EMPTY_WORKFLOW_GRAPH
  | some id =>
    match s.revisions.lookup id with
    | none => .error (.error "Workflow history target is invalid: revision does not exist")
    | some graph => validateGraph localeLe graph.candidate

/-- `activated` is the new identifier, or what compiling, confirming or storing throws. -/
def activateCompiledWorkflowRevision (s : Builder) (graph : WorkflowGraph)
    (activated : Outcome String) : Outcome Builder := do
  let id ← activated
  throwIf (s.revisions.lookup id ≠ none) (.error "UNIQUE constraint failed")
  return { s with revisions := (id, graph) :: s.revisions, activeId := some id }

def saveWorkflowRevision (localeLe : String → String → Bool) (s : Builder)
    (baseRevisionId : Option String) (candidate : GraphCandidate) (mode : WorkflowHistoryMode)
    (activated : Outcome String) (now : ℤ) : Outcome Builder := do
  let graph ← validateGraph localeLe candidate
  throwIf (s.activeId ≠ baseRevisionId) (.error "WORKFLOW_REVISION_CONFLICT")
  let next ← s.activateCompiledWorkflowRevision graph activated
  match mode with
  | .record label =>
    let undo := pushWorkflowHistoryEntry s.history.undo ⟨s.activeId, label, now⟩
    next.writeWorkflowBuilderHistory ⟨undo, []⟩
  | .ignore => return next
  | .reset => next.writeWorkflowBuilderHistory ⟨[], []⟩

def applyWorkflowBuilderHistory (localeLe : String → String → Bool) (s : Builder)
    (direction : WorkflowHistoryDirection) (baseRevisionId : Option String)
    (activated : Outcome String) (now : ℤ) : Outcome Builder := do
  throwIf (s.activeId ≠ baseRevisionId) (.error "WORKFLOW_REVISION_CONFLICT")
  match (s.history.stack direction).getLast? with
  | none => .error (.error ("WORKFLOW_HISTORY_" ++ direction.upper ++ "_EMPTY"))
  | some entry => do
    let graph ← s.workflowHistoryTarget localeLe entry
    let next ← s.activateCompiledWorkflowRevision graph activated
    let current : WorkflowHistoryEntry := ⟨s.activeId, entry.label, now⟩
    next.writeWorkflowBuilderHistory (match direction with
      | .undo => ⟨s.history.undo.dropLast, pushWorkflowHistoryEntry s.history.redo current⟩
      | .redo => ⟨pushWorkflowHistoryEntry s.history.undo current, s.history.redo.dropLast⟩)

/-- The graph of a revision; without one it is the empty graph. -/
def graphOf (revisions : List (String × WorkflowGraph)) : Option String → WorkflowGraph
  | none => EMPTY_WORKFLOW_GRAPH
  | some id => (revisions.lookup id).getD EMPTY_WORKFLOW_GRAPH

def graphs (s : Builder) (stack : List WorkflowHistoryEntry) : List WorkflowGraph :=
  stack.map (fun entry => graphOf s.revisions entry.revisionId)

/-- What the builder stands for: the graphs behind its identifiers. -/
def timeline (s : Builder) : Timeline WorkflowGraph :=
  ⟨s.graphs s.history.undo, graphOf s.revisions s.activeId, (s.graphs s.history.redo).reverse⟩

def saveEdit (mode : WorkflowHistoryMode) (graph : WorkflowGraph) : Edit WorkflowGraph :=
  match mode with
  | .record _ => .record graph
  | .ignore => .replace graph
  | .reset => .reset graph

def applyEdit : WorkflowHistoryDirection → Edit WorkflowGraph
  | .undo => .undo
  | .redo => .redo

/-- The calls of a run that return; one that throws is rolled back. -/
inductive Reached (localeLe : String → String → Bool) : List (Edit WorkflowGraph) → Builder → Prop
  | start : Reached localeLe [] ⟨[], none, ⟨[], []⟩⟩
  | save {edits s t candidate graph mode baseRevisionId activated now}
    (h : Reached localeLe edits s)
      (hgraph : validateGraph localeLe candidate = .ok graph)
      (hok : s.saveWorkflowRevision localeLe baseRevisionId candidate mode activated now = .ok t) :
      Reached localeLe (edits ++ [saveEdit mode graph]) t
  | apply {edits s t direction baseRevisionId activated now} (h : Reached localeLe edits s)
      (hok : s.applyWorkflowBuilderHistory localeLe direction baseRevisionId activated now =
        .ok t) :
      Reached localeLe (edits ++ [applyEdit direction]) t

structure Sound (localeLe : String → String → Bool) (s : Builder) : Prop where
  stored : ∀ x, x = s.activeId ∨ x ∈ (s.history.undo ++ s.history.redo).map (·.revisionId) →
    ∀ id ∈ x, s.revisions.lookup id ≠ none
  fixed : ∀ id graph, s.revisions.lookup id = some graph →
    validateGraph localeLe graph.candidate = .ok graph
  bounded : s.history.undo.length + s.history.redo.length ≤ WORKFLOW_BUILDER_HISTORY_LIMIT

variable {localeLe : String → String → Bool} {s t next : Builder} {graph : WorkflowGraph}
  {activated : Outcome String} {entry : WorkflowHistoryEntry} {history : WorkflowHistoryState}

theorem target_ok (h : s.Sound localeLe)
    (hok : s.workflowHistoryTarget localeLe entry = .ok graph) :
    graph = graphOf s.revisions entry.revisionId ∧
      validateGraph localeLe graph.candidate = .ok graph := by
  unfold workflowHistoryTarget at hok
  cases hid : entry.revisionId with
  | none =>
    simp only [hid, pure_eq_ok_iff] at hok
    exact hok ▸ ⟨rfl, rfl⟩
  | some id =>
    simp only [hid] at hok
    cases hlook : s.revisions.lookup id with
    | none => simp [hlook] at hok
    | some stored =>
      simp only [hlook, h.fixed id stored hlook, Except.ok.injEq] at hok
      subst hok
      exact ⟨by rw [graphOf, hlook, Option.getD_some], h.fixed id stored hlook⟩

/-- A new revision keeps the graphs of the stored ones, so that only the history decides. -/
theorem stored_ok (h : s.Sound localeLe)
    (hgraph : validateGraph localeLe graph.candidate = .ok graph)
    (hactivate : s.activateCompiledWorkflowRevision graph activated = .ok next)
    (ht : t = { next with history })
    (hhistory : ∀ entry ∈ history.undo ++ history.redo, entry.revisionId = s.activeId ∨
      entry ∈ s.history.undo ++ s.history.redo)
    (hbounded : history.undo.length + history.redo.length ≤ WORKFLOW_BUILDER_HISTORY_LIMIT) :
    t.Sound localeLe ∧
      t.timeline = ⟨s.graphs history.undo, graph, (s.graphs history.redo).reverse⟩ := by
  subst ht
  simp only [activateCompiledWorkflowRevision, bind_eq_ok, throwIf_eq_ok, not_not,
    pure_eq_ok_iff] at hactivate
  obtain ⟨id, -, -, hnew, rfl⟩ := hactivate
  have hold : ∀ other, s.revisions.lookup other ≠ none →
      ((id, graph) :: s.revisions).lookup other = s.revisions.lookup other := by
    intro other hother
    have hne : other ≠ id := fun heq => hother (heq ▸ hnew)
    rw [List.lookup_cons, beq_eq_false_iff_ne.mpr hne]
  have hstored : ∀ entry ∈ history.undo ++ history.redo,
      ∀ other ∈ entry.revisionId, s.revisions.lookup other ≠ none :=
    fun entry hentry => h.stored _ ((hhistory entry hentry).imp_right List.mem_map_of_mem)
  have hgraphs : ∀ entry ∈ history.undo ++ history.redo,
      graphOf ((id, graph) :: s.revisions) entry.revisionId =
        graphOf s.revisions entry.revisionId := by
    intro entry hentry
    cases hid : entry.revisionId with
    | none => rfl
    | some other => rw [graphOf, graphOf, hold other (hstored entry hentry other hid)]
  refine ⟨⟨?_, ?_, hbounded⟩, ?_⟩
  · rintro x (rfl | hx) other hother
    · cases hother
      simp
    · obtain ⟨entry, hentry, rfl⟩ := List.mem_map.mp hx
      have hsome := hstored entry hentry other hother
      rwa [hold other hsome]
  · intro other stored hlook
    rw [List.lookup_cons] at hlook
    split at hlook
    · cases hlook
      exact hgraph
    · exact h.fixed other stored hlook
  · simp only [timeline, graphs, Timeline.mk.injEq, List.reverse_inj]
    refine ⟨List.map_congr_left ?_, by simp [graphOf], List.map_congr_left ?_⟩
    · exact fun entry hentry => hgraphs entry (List.mem_append_left _ hentry)
    · exact fun entry hentry => hgraphs entry (List.mem_append_right _ hentry)

theorem write_ok (h : next.writeWorkflowBuilderHistory history = .ok t) :
    t = { next with history } := by
  simp only [writeWorkflowBuilderHistory, bind_eq_ok, pure_eq_ok_iff] at h
  obtain ⟨-, -, -, -, rfl⟩ := h
  rfl

theorem history_activated (h : s.activateCompiledWorkflowRevision graph activated = .ok next) :
    next.history = s.history := by
  simp only [activateCompiledWorkflowRevision, bind_eq_ok, pure_eq_ok_iff] at h
  obtain ⟨_, -, -, -, rfl⟩ := h
  rfl

theorem mem_push {stack : List WorkflowHistoryEntry} {current : WorkflowHistoryEntry}
    (h : entry ∈ pushWorkflowHistoryEntry stack current) : entry = current ∨ entry ∈ stack := by
  have hmem := List.mem_of_mem_drop h
  rw [List.mem_append, List.mem_singleton] at hmem
  exact hmem.symm

theorem push_of_lt (stack : List WorkflowHistoryEntry)
    (h : stack.length < WORKFLOW_BUILDER_HISTORY_LIMIT) (current : WorkflowHistoryEntry) :
    pushWorkflowHistoryEntry stack current = stack ++ [current] := by
  apply lastOf_of_le
  rw [List.length_append, List.length_singleton]
  exact h

variable (htotal : Std.Total (fun left right => localeLe left right = true))
  (htrans : IsTrans String (fun left right => localeLe left right = true))

include htotal htrans in
theorem save_step {candidate : GraphCandidate} {mode : WorkflowHistoryMode}
    {baseRevisionId : Option String} {now : ℤ} (h : s.Sound localeLe)
    (hgraph : validateGraph localeLe candidate = .ok graph)
    (hok : s.saveWorkflowRevision localeLe baseRevisionId candidate mode activated now = .ok t) :
    t.Sound localeLe ∧
      t.timeline = s.timeline.apply WORKFLOW_BUILDER_HISTORY_LIMIT (saveEdit mode graph) := by
  have hagain := validateGraph_again htotal htrans hgraph
  simp only [saveWorkflowRevision, hgraph, ok_bind, bind_eq_ok] at hok
  obtain ⟨-, -, next, hactivate, hok⟩ := hok
  cases mode with
  | record label =>
    obtain ⟨hsound, htimeline⟩ := stored_ok h hagain hactivate (write_ok hok) (by
      intro entry hentry
      rw [List.append_nil] at hentry
      rcases mem_push hentry with rfl | hmem
      · exact .inl rfl
      · exact .inr (List.mem_append_left _ hmem)) (length_lastOf_le _)
    refine ⟨hsound, htimeline.trans ?_⟩
    simp [Timeline.apply, saveEdit, timeline, graphs, pushWorkflowHistoryEntry, lastOf,
      List.map_drop]
  | ignore =>
    obtain rfl := pure_eq_ok_iff.mp hok
    have hsame : next = { next with history := s.history } := by
      rw [← history_activated hactivate]
    exact stored_ok h hagain hactivate hsame (fun _ hentry => .inr hentry) h.bounded
  | reset => exact stored_ok h hagain hactivate (write_ok hok) (by simp) (by simp)

theorem apply_step {direction : WorkflowHistoryDirection} {baseRevisionId : Option String} {now : ℤ}
    (h : s.Sound localeLe)
    (hok : s.applyWorkflowBuilderHistory localeLe direction baseRevisionId activated now = .ok t) :
    t.Sound localeLe ∧
      t.timeline = s.timeline.apply WORKFLOW_BUILDER_HISTORY_LIMIT (applyEdit direction) := by
  simp only [applyWorkflowBuilderHistory, bind_eq_ok] at hok
  obtain ⟨-, -, hok⟩ := hok
  split at hok
  · cases hok
  · rename_i entry hlast
    simp only [bind_eq_ok] at hok
    obtain ⟨graph, htgt, next, hactivate, hok⟩ := hok
    obtain ⟨rfl, hagain⟩ := target_ok h htgt
    have hbounded := h.bounded
    cases direction with
    | undo =>
      obtain ⟨earlier, hundo⟩ := List.getLast?_eq_some_iff.mp hlast
      change s.history.undo = earlier ++ [entry] at hundo
      rw [hundo, List.length_append, List.length_singleton] at hbounded
      have ht := write_ok hok
      simp only [hundo, push_of_lt s.history.redo (by omega), List.dropLast_concat] at ht
      obtain ⟨hsound, htimeline⟩ :=
        stored_ok h hagain hactivate ht (by simp only [hundo]; grind) (by
        simp only [List.length_append, List.length_singleton]
        omega)
      refine ⟨hsound, htimeline.trans ?_⟩
      simp [Timeline.apply, applyEdit, timeline, graphs, hundo]
    | redo =>
      obtain ⟨later, hredo⟩ := List.getLast?_eq_some_iff.mp hlast
      change s.history.redo = later ++ [entry] at hredo
      rw [hredo, List.length_append, List.length_singleton] at hbounded
      have ht := write_ok hok
      simp only [hredo, push_of_lt s.history.undo (by omega), List.dropLast_concat] at ht
      obtain ⟨hsound, htimeline⟩ :=
        stored_ok h hagain hactivate ht (by simp only [hredo]; grind) (by
        simp only [List.length_append, List.length_singleton]
        omega)
      refine ⟨hsound, htimeline.trans ?_⟩
      simp [Timeline.apply, applyEdit, timeline, graphs, hredo]

include htotal htrans in
/-- A run of saves, undos and redos moves through a list of graphs with a cursor: what an undo
takes back is kept for the redo, and every stored graph is one that its validation keeps. -/
theorem builder_history_is_timeline {edits : List (Edit WorkflowGraph)}
    (h : Reached localeLe edits s) :
    s.timeline = edits.foldl (Timeline.apply WORKFLOW_BUILDER_HISTORY_LIMIT)
        ⟨[], EMPTY_WORKFLOW_GRAPH, []⟩ ∧
      s.history.undo.length + s.history.redo.length ≤ WORKFLOW_BUILDER_HISTORY_LIMIT ∧
      ∀ id graph, s.revisions.lookup id = some graph →
        validateGraph localeLe graph.candidate = .ok graph := by
  have hsound : s.Sound localeLe ∧ s.timeline = edits.foldl
      (Timeline.apply WORKFLOW_BUILDER_HISTORY_LIMIT) ⟨[], EMPTY_WORKFLOW_GRAPH, []⟩ := by
    induction h with
    | start => exact ⟨⟨by simp, by simp, Nat.zero_le _⟩, rfl⟩
    | save h hgraph hok ih =>
      rw [List.foldl_append, ← ih.2]
      exact save_step htotal htrans ih.1 hgraph hok
    | apply h hok ih =>
      rw [List.foldl_append, ← ih.2]
      exact apply_step ih.1 hok
  exact ⟨hsound.2, hsound.1.bounded, hsound.1.fixed⟩

/-- Two channels of which the lower one comes first. -/
def channelCandidate : GraphCandidate :=
  ⟨1, [⟨"lower", "channel", "version", some 7, some 90⟩,
    ⟨"upper", "channel", "version", some 9, some 20⟩], []⟩

def channelGraph : WorkflowGraph :=
  ⟨1, [⟨"lower", .channel, "version", ⟨0, 150⟩⟩, ⟨"upper", .channel, "version", ⟨0, 0⟩⟩], []⟩

/-- The graph is saved and taken back. -/
theorem builder_history_is_timeline_undo : ∃ s,
    validateGraph (fun left right => left ≤ right) channelCandidate = .ok channelGraph ∧
      Reached (fun left right => left ≤ right) [.record channelGraph, .undo] s ∧
      s.timeline = ⟨[], EMPTY_WORKFLOW_GRAPH, [channelGraph]⟩ := by
  let saved : Builder := ⟨[("first", channelGraph)], some "first", ⟨[⟨none, "saved", 1⟩], []⟩⟩
  let undone : Builder := ⟨[("second", EMPTY_WORKFLOW_GRAPH), ("first", channelGraph)],
    some "second", ⟨[], [⟨some "first", "saved", 2⟩]⟩⟩
  let order : String → String → Bool := fun left right => left ≤ right
  have hgraph : validateGraph order channelCandidate = .ok channelGraph := by decide +kernel
  have hsave : saveWorkflowRevision order ⟨[], none, ⟨[], []⟩⟩ none channelCandidate
      (.record "saved") (.ok "first") 1 = .ok saved := by
    rw [saveWorkflowRevision, hgraph]
    rfl
  have hundo : saved.applyWorkflowBuilderHistory order .undo (some "first") (.ok "second") 2 =
      .ok undone := rfl
  have hreach : Reached order [.record channelGraph, .undo] undone :=
    .apply (.save .start hgraph hsave) hundo
  refine ⟨undone, hgraph, hreach, ?_⟩
  have htotal : Std.Total (fun left right => order left right = true) :=
    ⟨fun left right => by simpa [order] using String.le_total left right⟩
  have htrans : IsTrans String (fun left right => order left right = true) :=
    ⟨fun _ _ _ => by simpa [order] using String.le_trans⟩
  exact (builder_history_is_timeline htotal htrans hreach).1

end Builder

end History

end TsxCore.Workflow
