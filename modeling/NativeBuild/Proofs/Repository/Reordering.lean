import Mathlib.Data.List.Forall2
import Mathlib.Data.List.Nodup
import NativeBuild.Proofs.Except
import NativeBuild.Proofs.Repository.Resolution

namespace NativeBuild

structure Variant.Reordered (v w : Variant) : Prop where
  name : v.name = w.name
  attributes : v.attributes = w.attributes
  files : v.files = w.files
  dependencies : v.dependencies.Perm w.dependencies

structure Component.Reordered (c d : Component) : Prop where
  id : c.id = d.id
  variants : List.Forall₂ Variant.Reordered c.variants d.variants

def Repository.Reordered (r r' : Repository) : Prop :=
  List.Forall₂ Component.Reordered r.components r'.components

/-- Channels that select variants alike and declare the same dependencies, in whatever order. -/
structure Channel.Reordered (c d : Channel) : Prop where
  attributes : c.attributes = d.attributes
  dependencies : c.dependencies.Perm d.dependencies

section Equivalence

theorem Variant.Reordered.refl (v : Variant) : v.Reordered v := ⟨rfl, rfl, rfl, .refl _⟩

theorem Component.Reordered.refl (c : Component) : c.Reordered c :=
  ⟨rfl, List.forall₂_same.2 fun v _ => .refl v⟩

theorem Repository.Reordered.refl (r : Repository) : r.Reordered r :=
  List.forall₂_same.2 fun c _ => .refl c

theorem Variant.Reordered.symm {v w : Variant} (h : v.Reordered w) : w.Reordered v :=
  ⟨h.name.symm, h.attributes.symm, h.files.symm, h.dependencies.symm⟩

theorem Component.Reordered.symm {c d : Component} (h : c.Reordered d) : d.Reordered c :=
  ⟨h.id.symm, (h.variants.imp fun _ _ => Variant.Reordered.symm).flip⟩

theorem Repository.Reordered.symm {r r' : Repository} (h : r.Reordered r') : r'.Reordered r :=
  (h.imp fun _ _ => Component.Reordered.symm).flip

theorem Channel.Reordered.symm {c d : Channel} (h : c.Reordered d) : d.Reordered c :=
  ⟨h.attributes.symm, h.dependencies.symm⟩

end Equivalence

def Variant.outline (v : Variant) : Variant :=
  { v with dependencies := [] }

def Component.outline (c : Component) : Component :=
  { c with variants := c.variants.map Variant.outline }

def Node.outline (n : Node) : Node :=
  ⟨n.component.outline, n.variant.outline⟩

theorem Variant.Reordered.outline {v w : Variant} (h : v.Reordered w) : v.outline = w.outline := by
  simp [Variant.outline, h.name, h.attributes, h.files]

theorem map_outline {vs ws : List Variant} (h : List.Forall₂ Variant.Reordered vs ws) :
    vs.map Variant.outline = ws.map Variant.outline := by
  induction h with
  | nil => rfl
  | cons hv _ ih => rw [List.map_cons, List.map_cons, hv.outline, ih]

namespace Component

variable {c d : Component}

theorem Reordered.outline (h : c.Reordered d) : c.outline = d.outline := by
  simp [Component.outline, h.id, map_outline h.variants]

theorem Reordered.matching (h : c.Reordered d) (wanted : AttributeSet) :
    List.Forall₂ Variant.Reordered (c.matching wanted) (d.matching wanted) := by
  refine List.rel_filter (fun v w hv => ?_) h.variants
  simp only [hv.attributes]

theorem Reordered.only (h : c.Reordered d) {wanted : AttributeSet} {v : Variant}
    (hv : c.matching wanted = [v]) : ∃ w, d.matching wanted = [w] ∧ v.Reordered w := by
  obtain ⟨w, ws, hw, hnil, e⟩ := List.forall₂_cons_left_iff.1 (hv ▸ h.matching wanted)
  rw [List.forall₂_nil_left_iff.1 hnil] at e
  exact ⟨w, e, hw⟩

theorem matching_outline (c : Component) (wanted : AttributeSet) :
    c.outline.matching wanted = (c.matching wanted).map Variant.outline := by
  simp only [matching, Component.outline, List.filter_map]
  rfl

end Component

namespace Repository

variable {r r' : Repository} {channel channel' : Channel}

theorem Reordered.find? (h : r.Reordered r') {d : Dependency} {c : Component}
    (hd : r.find? d = some c) : ∃ c', r'.find? d = some c' ∧ c.Reordered c' := by
  obtain ⟨cs⟩ := r
  obtain ⟨cs'⟩ := r'
  simp only [Repository.Reordered, Repository.find?] at h hd ⊢
  induction h with
  | nil => cases hd
  | @cons a b _ _ hab _ ih =>
    rw [List.find?_cons] at hd ⊢
    rw [← hab.id]
    split at hd
    · cases hd
      exact ⟨b, rfl, hab⟩
    · exact ih hd

section Reach

variable (hr : r.Reordered r') (hc : channel.Reordered channel')
include hr hc

theorem Reachable.reordered {c : Component} (h : r.Reachable channel c) :
    ∃ c', r'.Reachable channel' c' ∧ c.Reordered c' := by
  induction h with
  | declared hd hf =>
    obtain ⟨c', hf', same⟩ := hr.find? hf
    exact ⟨c', .declared (hc.dependencies.mem_iff.1 hd) hf', same⟩
  | through _ hv hd hf ih =>
    obtain ⟨b, hb, same⟩ := ih
    rw [hc.attributes] at hv
    obtain ⟨w, hw, hvw⟩ := same.only hv
    obtain ⟨c', hf', same'⟩ := hr.find? hf
    exact ⟨c', .through hb hw (hvw.dependencies.mem_iff.1 hd) hf', same'⟩

theorem Required.reordered {d : Dependency} (h : r.Required channel d) :
    r'.Required channel' d := by
  cases h with
  | declared hd => exact .declared (hc.dependencies.mem_iff.1 hd)
  | through hb hv hd =>
    obtain ⟨b, hb, same⟩ := hb.reordered hr hc
    rw [hc.attributes] at hv
    obtain ⟨w, hw, hvw⟩ := same.only hv
    exact .through hb hw (hvw.dependencies.mem_iff.1 hd)

theorem Resolvable.reordered (h : r.Resolvable channel) : r'.Resolvable channel' where
  found d hd := by
    obtain ⟨c, hf⟩ := h.found d (hd.reordered hr.symm hc.symm)
    obtain ⟨c', hf', -⟩ := hr.find? hf
    exact ⟨c', hf'⟩
  matched c hd := by
    obtain ⟨b, hb, same⟩ := hd.reordered hr.symm hc.symm
    obtain ⟨v, hv⟩ := h.matched b hb
    rw [hc.attributes] at hv
    obtain ⟨w, hw, -⟩ := same.symm.only hv
    exact ⟨w, hw⟩

theorem Enumerates.outline_mem {nodes nodes' : List Node} (h : r.Enumerates channel nodes)
    (h' : r'.Enumerates channel' nodes') {n : Node} (hn : n ∈ nodes.map Node.outline) :
    n ∈ nodes'.map Node.outline := by
  obtain ⟨m, hm, rfl⟩ := List.mem_map.1 hn
  obtain ⟨reachable, hv⟩ := (h.mem_iff m).1 hm
  obtain ⟨c, hc', same⟩ := reachable.reordered hr hc
  rw [hc.attributes] at hv
  obtain ⟨w, hw, hvw⟩ := same.only hv
  refine List.mem_map.2 ⟨⟨c, w⟩, (h'.mem_iff _).2 ⟨hc', hw⟩, ?_⟩
  simp only [Node.outline, same.outline, hvw.outline]

end Reach

theorem Enumerates.nodup_outline {nodes : List Node} (h : r.Enumerates channel nodes) :
    (nodes.map Node.outline).Nodup := by
  have ids : ((nodes.map Node.outline).map (·.component.id)).Nodup := by
    rw [List.map_map]
    exact h.distinct
  exact List.Nodup.of_map (fun n : Node => n.component.id) ids

theorem nodes_reordered (hr : r.Reordered r') (hc : channel.Reordered channel')
    {nodes : List Node} (hn : r.nodes channel = .ok nodes) :
    ∃ nodes', r'.nodes channel' = .ok nodes' ∧
      (nodes.map Node.outline).Perm (nodes'.map Node.outline) := by
  have resolvable : r'.Resolvable channel' := (nodes_ok_iff.1 ⟨nodes, hn⟩).reordered hr hc
  obtain ⟨nodes', hn'⟩ := nodes_ok_iff.2 resolvable
  have h := (nodes_explored hn).enumerates
  have h' := (nodes_explored hn').enumerates
  -- Both lists have each reachable component once, and no order is left to compare.
  refine ⟨nodes', hn', (List.perm_ext_iff_of_nodup h.nodup_outline h'.nodup_outline).2 ?_⟩
  intro n
  exact ⟨h.outline_mem hr hc h', h'.outline_mem hr.symm hc.symm h⟩

theorem viewOf_outline (wanted : AttributeSet) (n : Node) :
    viewOf wanted n.outline = viewOf wanted n := by
  have matching : n.outline.component.matching wanted =
      (n.component.matching wanted).map Variant.outline := n.component.matching_outline wanted
  -- A view asks for no more than how many variants match, and for the files of an only one.
  simp only [viewOf, choose, matching]
  match n.component.matching wanted with
  | [] => rfl
  | [_] => rfl
  | _ :: _ :: vs =>
    simp only [List.map_cons, List.length_cons, List.length_map]
    rfl

theorem mapM_viewOf_outline (wanted : AttributeSet) (nodes : List Node) :
    nodes.mapM (viewOf wanted) = (nodes.map Node.outline).mapM (viewOf wanted) := by
  induction nodes with
  | nil => rfl
  | cons n nodes ih => rw [List.map_cons, List.mapM_cons, List.mapM_cons, viewOf_outline, ih]

theorem resolve_reordered (hr : r.Reordered r') (hc : channel.Reordered channel')
    (view : Option AttributeSet) {artifacts : List Artifact}
    (h : r.resolve ⟨channel, view⟩ = .ok artifacts) :
    ∃ artifacts', r'.resolve ⟨channel', view⟩ = .ok artifacts' ∧ artifacts.Perm artifacts' := by
  obtain ⟨nodes, hn, h⟩ := bind_eq_ok.1 h
  obtain ⟨nodes', hn', same⟩ := nodes_reordered hr hc hn
  cases view with
  | none =>
    cases h
    refine ⟨_, bind_eq_ok.2 ⟨nodes', hn', rfl⟩, ?_⟩
    have files := same.flatMap_right fun n => n.component.artifacts n.variant
    rw [List.flatMap_map, List.flatMap_map] at files
    exact files
  | some view =>
    obtain ⟨parts, hp, h⟩ := bind_eq_ok.1 h
    cases h
    rw [mapM_viewOf_outline] at hp
    obtain ⟨parts', hp', same⟩ := mapM_perm same hp
    rw [← mapM_viewOf_outline] at hp'
    have selection : Request.selection ⟨channel, some view⟩ =
        Request.selection ⟨channel', some view⟩ := by
      simp [Request.selection, hc.attributes]
    rw [selection] at hp'
    exact ⟨_, bind_eq_ok.2 ⟨nodes', hn', bind_eq_ok.2 ⟨parts', hp', rfl⟩⟩, same.flatten⟩

end Repository

end NativeBuild
