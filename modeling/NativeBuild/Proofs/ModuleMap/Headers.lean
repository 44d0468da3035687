import NativeBuild.Channel.Registry
import NativeBuild.Proofs.ModuleMap.Grouping
import NativeBuild.Proofs.Repository.View

namespace NativeBuild.ModuleMap

variable {r : Repository} {channel : Channel}

theorem moduleName?_of_selects {d : Dependency} {id : ComponentId} (h : d.selects id = true) :
    ∃ name, id.moduleName? = some name := by
  cases id with
  | module group name version => exact ⟨_, rfl⟩
  | project path => exact ⟨_, rfl⟩
  | libraryBinary projectPath library variant => exact ⟨_, rfl⟩
  | unknown kind displayName => cases d <;> simp [Dependency.selects] at h

def moduleNameOf (id : ComponentId) : String :=
  id.moduleName?.getD ""

theorem classify_of_reachable {c : Component} (h : r.Reachable channel c) :
    classify c.id = .ok (moduleNameOf c.id) := by
  obtain ⟨d, -, hd⟩ := h.exists_required
  obtain ⟨name, hn⟩ := moduleName?_of_selects (Repository.selects_of_find? hd)
  simp [classify, moduleNameOf, hn]

theorem view_isSatisfiedBy (attributes : AttributeSet) : view.isSatisfiedBy attributes =
    (attributes.value? .requiresModuleMap == some true) := by
  change ((attributes.get? Attribute.requiresModuleMap.name == some (.flag true)) && true) = _
  rw [Bool.and_true, AttributeSet.value?]
  cases attributes.get? Attribute.requiresModuleMap.name with
  | none => rfl
  | some value =>
    cases value with
    | flag b => cases b <;> rfl
    | usage u => rfl

def headersOf (n : Node) : List (String × String) :=
  n.variant.files.map fun f => (moduleNameOf n.component.id, f.text)

def hasHeaders (n : Node) : Bool :=
  n.variant.attributes.value? .requiresModuleMap == some true

theorem kept_view (n : Node) : Repository.kept view n =
    if hasHeaders n then n.component.artifacts n.variant else [] := by
  rw [Repository.kept, view_isSatisfiedBy]
  rfl

theorem headers_of_kept (nodes : List Node) :
    (nodes.flatMap (Repository.kept view)).map (fun a => (moduleNameOf a.producer, a.file.text)) =
      (nodes.filter hasHeaders).flatMap headersOf := by
  induction nodes with
  | nil => rfl
  | cons n nodes ih =>
    rw [List.flatMap_cons, List.map_append, ih, kept_view]
    by_cases h : hasHeaders n = true
    · rw [List.filter_cons_of_pos h, List.flatMap_cons]
      congr 1
      rw [if_pos h, Component.artifacts, List.map_map]
      rfl
    · rw [List.filter_cons_of_neg h, if_neg h]
      rfl

theorem classify_of_kept {nodes : List Node} (h : ∀ n ∈ nodes, r.Reachable channel n.component) :
    ∀ a ∈ nodes.flatMap (Repository.kept view), classify a.producer = .ok (moduleNameOf a.producer) := by
  intro a ha
  obtain ⟨n, hn, ha⟩ := List.mem_flatMap.1 ha
  unfold Repository.kept at ha
  split at ha
  · obtain ⟨f, -, rfl⟩ := List.mem_map.1 ha
    exact classify_of_reachable (h n hn)
  · cases ha

theorem ofResolution_request_eq (h : view.Agrees channel.attributes) :
    ofResolution (r.resolve (request channel)) = ((r.nodes channel).mapError .resolution).map
      fun nodes => addHeaders ((nodes.filter hasHeaders).flatMap headersOf) [] := by
  rw [request, Repository.resolve_artifactView_eq h]
  cases hn : r.nodes channel with
  | error e => rfl
  | ok nodes =>
    change aggregate (nodes.flatMap (Repository.kept view)) = _
    have sound := (Repository.nodes_explored hn).sound
    rw [aggregate_eq (classify_of_kept fun n hm => (sound n hm).1), headers_of_kept]
    rfl

theorem ofResolution_request_eq_ok {maps : List ModuleMap} (h : view.Agrees channel.attributes) :
    ofResolution (r.resolve (request channel)) = .ok maps ↔ ∃ nodes, r.nodes channel = .ok nodes ∧
      addHeaders ((nodes.filter hasHeaders).flatMap headersOf) [] = maps := by
  rw [ofResolution_request_eq h]
  cases r.nodes channel with
  | error f => simp [Except.map, Except.mapError]
  | ok nodes => simp [Except.map, Except.mapError]

theorem ofResolution_request_eq_error {e : BuildError} (h : view.Agrees channel.attributes) :
    ofResolution (r.resolve (request channel)) = .error e ↔
      ∃ f, r.resolve channel.request = .error f ∧ e = .resolution f := by
  rw [ofResolution_request_eq h, Repository.resolve_request_eq]
  cases r.nodes channel with
  | error f => simp [Except.map, Except.mapError, eq_comm]
  | ok nodes => simp [Except.map, Except.mapError]

/-- The module maps behind a binary's compile channel exist exactly when the channel resolves, and
fail with its failure otherwise, never for want of a module name. Their names are distinct, and they
hold the files of the reachable components whose selected variant is marked as headers: each file
once for each time it is listed, under the module name of its component. -/
theorem moduleMaps_of_compile (r : Repository) (binary : BinaryIdentity) (base : DependencySet) :
    let compile := (BinaryChannels.of binary base).compile
    let answer := ofResolution (r.resolve (request compile))
    ((∃ maps, answer = .ok maps) ↔ ∃ artifacts, r.resolve compile.request = .ok artifacts) ∧
    (∀ e, answer = .error e ↔ ∃ f, r.resolve compile.request = .error f ∧ e = .resolution f) ∧
    (∀ displayName kind, answer ≠ .error (.unclassifiableProducer displayName kind)) ∧
    ∀ maps, answer = .ok maps → (maps.map (·.name)).Nodup ∧
      ∃ (nodes : List Node) (name : ComponentId → String), r.Enumerates compile nodes ∧
        (∀ n ∈ nodes, classify n.component.id = .ok (name n.component.id)) ∧
        (maps.flatMap fun m => m.headers.map fun h => (m.name, h)).Perm
          ((nodes.filter fun n => n.variant.attributes.value? .requiresModuleMap == some true).flatMap
            fun n => n.variant.files.map fun f => (name n.component.id, f.text)) := by
  intro compile answer
  have agrees : view.Agrees compile.attributes :=
    Repository.moduleMapView_agrees .compile binary base
  refine ⟨⟨?_, ?_⟩, fun e => ofResolution_request_eq_error agrees, ?_, ?_⟩
  · rintro ⟨maps, hm⟩
    obtain ⟨nodes, hn, -⟩ := (ofResolution_request_eq_ok agrees).1 hm
    exact ⟨_, Repository.resolve_request_eq_ok.2 ⟨nodes, hn, rfl⟩⟩
  · rintro ⟨artifacts, ha⟩
    obtain ⟨nodes, hn, -⟩ := Repository.resolve_request_eq_ok.1 ha
    exact ⟨_, (ofResolution_request_eq_ok agrees).2 ⟨nodes, hn, rfl⟩⟩
  · intro displayName kind h
    obtain ⟨f, -, hf⟩ := (ofResolution_request_eq_error agrees).1 h
    cases hf
  · intro maps hm
    obtain ⟨nodes, hn, rfl⟩ := (ofResolution_request_eq_ok agrees).1 hm
    have explored := Repository.nodes_explored hn
    refine ⟨nodup_addHeaders .nil, nodes, moduleNameOf, explored.enumerates, ?_, ?_⟩
    · exact fun n hn => classify_of_reachable (explored.sound n hn).1
    · have hp := entries_addHeaders ((nodes.filter hasHeaders).flatMap headersOf) []
      rw [show entries [] = [] from rfl, List.append_nil] at hp
      exact hp

end NativeBuild.ModuleMap
