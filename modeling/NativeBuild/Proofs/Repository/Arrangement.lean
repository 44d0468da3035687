import Mathlib
import NativeBuild.Proofs.Repository.Exploration
import NativeBuild.Proofs.Repository.Simulation
import NativeBuild.Proofs.Repository.Validation

namespace NativeBuild

open Relation

section Lists

variable {α β γ : Type} {R : α → β → Prop}

theorem find?_eq_of_perm {p : α → Bool} {l l' : List α} (h : l.Perm l') (one : l.countP p ≤ 1) :
    l.find? p = l'.find? p := by
  have perm : (l.filter p).Perm (l'.filter p) := h.filter p
  rw [List.countP_eq_length_filter] at one
  rw [← List.head?_filter, ← List.head?_filter]
  generalize l.filter p = found at one perm ⊢
  match found with
  | [] => rw [List.nil_perm.1 perm]
  | [a] => rw [List.singleton_perm.1 perm]
  | _ :: _ :: _ => simp at one

theorem map_eq_of_forall₂ {l : List α} {l' : List β} (h : List.Forall₂ R l l') {f : α → γ}
    {g : β → γ} (hf : ∀ a b, R a b → f a = g b) : l.map f = l'.map g := by
  induction h with
  | nil => rfl
  | cons hab _ ih => rw [List.map_cons, List.map_cons, hf _ _ hab, ih]

theorem mapM_eq_of_forall₂ {ε : Type} {l : List α} {l' : List β} (h : List.Forall₂ R l l')
    {f : α → Except ε γ} {g : β → Except ε γ} (hf : ∀ a b, R a b → f a = g b) :
    l.mapM f = l'.mapM g := by
  have mapped : (l.map f).mapM id = (l'.map g).mapM id := by rw [map_eq_of_forall₂ h hf]
  rwa [List.mapM_map, List.mapM_map] at mapped

theorem exists_mem_of_forall₂ {l : List α} {l' : List β} (h : List.Forall₂ R l l') {a : α}
    (ha : a ∈ l) : ∃ b ∈ l', R a b := by
  induction h with
  | nil => cases ha
  | @cons c d _ _ hcd _ ih =>
    rcases List.mem_cons.1 ha with rfl | ha
    · exact ⟨d, List.mem_cons_self, hcd⟩
    · obtain ⟨b, hb, hab⟩ := ih ha
      exact ⟨b, List.mem_cons_of_mem d hb, hab⟩

end Lists

structure Component.Shuffled (c d : Component) : Prop where
  id : c.id = d.id
  variants : c.variants.Perm d.variants

structure Node.Shuffled (n m : Node) : Prop where
  component : n.component.Shuffled m.component
  variant : n.variant = m.variant

namespace Component.Shuffled

variable {c d : Component}

theorem matching (h : c.Shuffled d) (wanted : AttributeSet) :
    (c.matching wanted).Perm (d.matching wanted) :=
  h.variants.filter _

theorem choose (h : c.Shuffled d) (wanted : AttributeSet) :
    Repository.choose c wanted = Repository.choose d wanted := by
  have perm := h.matching wanted
  unfold Repository.choose
  rw [h.id]
  generalize c.matching wanted = vs at perm ⊢
  generalize d.matching wanted = ws at perm ⊢
  match vs with
  | [] => rw [List.nil_perm.1 perm]
  | [v] => rw [List.singleton_perm.1 perm]
  | _ :: _ :: _ =>
    have length := perm.length_eq
    match ws with
    | [] => simp at length
    | [_] => simp at length
    | _ :: _ :: _ => simp only [length]

end Component.Shuffled

namespace Repository

def Shuffled (r r' : Repository) : Prop :=
  List.Forall₂ Component.Shuffled r.components r'.components

/-- The same components, and the variants of each, in whatever order. -/
def Rearranged (r r' : Repository) : Prop :=
  ∃ components, r.components.Perm components ∧
    List.Forall₂ Component.Shuffled components r'.components

/-- A dependency selects one component of the repository, or none. -/
def SelectsOne (r : Repository) (d : Dependency) : Prop :=
  r.components.countP (fun c => d.selects c.id) ≤ 1

instance (r : Repository) (d : Dependency) : Decidable (r.SelectsOne d) :=
  inferInstanceAs (Decidable (_ ≤ 1))

def FindsAlike (r r' : Repository) (d : Dependency) : Prop :=
  Option.Rel Component.Shuffled (r.find? d) (r'.find? d)

variable {r r' : Repository} {channel : Channel} {d : Dependency}

theorem find?_shuffled {cs cs' : List Component} (h : List.Forall₂ Component.Shuffled cs cs')
    (d : Dependency) : Option.Rel Component.Shuffled (cs.find? fun c => d.selects c.id)
      (cs'.find? fun c => d.selects c.id) := by
  induction h with
  | nil => exact .none
  | cons hc _ ih =>
    rw [List.find?_cons, List.find?_cons, ← hc.id]
    split
    · exact .some hc
    · exact ih

theorem Shuffled.findsAlike (h : r.Shuffled r') (d : Dependency) : FindsAlike r r' d :=
  find?_shuffled h d

theorem Rearranged.findsAlike (h : r.Rearranged r') (one : r.SelectsOne d) : FindsAlike r r' d := by
  obtain ⟨components, perm, shuffled⟩ := h
  unfold FindsAlike find?
  rw [find?_eq_of_perm perm one]
  exact find?_shuffled shuffled d

theorem Rearranged.exists_shuffled (h : r.Rearranged r') {c : Component} (hc : c ∈ r.components) :
    ∃ c' ∈ r'.components, c.Shuffled c' := by
  obtain ⟨components, perm, shuffled⟩ := h
  exact exists_mem_of_forall₂ shuffled (perm.mem_iff.1 hc)

theorem Rearranged.exists_original (h : r.Rearranged r') {c' : Component}
    (hc : c' ∈ r'.components) : ∃ c ∈ r.components, c.Shuffled c' := by
  obtain ⟨components, perm, shuffled⟩ := h
  obtain ⟨c, hc, same⟩ := exists_mem_of_forall₂ shuffled.flip hc
  exact ⟨c, perm.mem_iff.2 hc, same⟩

theorem FindsAlike.none (h : FindsAlike r r' d) (hd : r.find? d = none) : r'.find? d = none := by
  rw [FindsAlike, hd] at h
  generalize r'.find? d = found at h ⊢
  cases h
  rfl

theorem FindsAlike.some (h : FindsAlike r r' d) {c : Component} (hd : r.find? d = some c) :
    ∃ c', r'.find? d = some c' ∧ c.Shuffled c' := by
  rw [FindsAlike, hd] at h
  generalize r'.find? d = found at h ⊢
  cases h with
  | some hc => exact ⟨_, rfl, hc⟩

theorem FindsAlike.map_id (h : FindsAlike r r' d) :
    (r'.find? d).map (·.id) = (r.find? d).map (·.id) := by
  unfold FindsAlike at h
  generalize r.find? d = found at h ⊢
  generalize r'.find? d = found' at h ⊢
  cases h with
  | none => rfl
  | some hc => exact congrArg Option.some hc.id.symm

structure SameState (r r' : Repository) (s s' : List Dependency × List Node) : Prop where
  pending : s'.1 = s.1
  alike : ∀ d ∈ s.1, FindsAlike r r' d
  nodes : List.Forall₂ Node.Shuffled s.2 s'.2

theorem reached_shuffled {nodes nodes' : List Node} (h : List.Forall₂ Node.Shuffled nodes nodes')
    (id : ComponentId) : reached nodes' id = reached nodes id := by
  have ids : nodes.map (·.component.id) = nodes'.map (·.component.id) :=
    map_eq_of_forall₂ h fun _ _ hn => hn.component.id
  rw [Bool.eq_iff_iff, reached_iff, reached_iff, ids]

theorem simulation_of_findsAlike
    (alike : ∀ c ∈ r.components, ∀ v ∈ c.variants, ∀ d ∈ v.dependencies, FindsAlike r r' d)
    (channel : Channel) : Simulation r channel r' channel (SameState r r') Eq where
  done h := h.pending
  move := by
    rintro _ ⟨_, nodes'⟩ _ ⟨rfl, pending, same⟩ m
    cases m with
    | @drop d rest nodes c hd hc =>
      rw [List.forall_mem_cons] at pending
      obtain ⟨c', hd', shuffled⟩ := pending.1.some hd
      rw [shuffled.id, ← reached_shuffled same] at hc
      exact ⟨_, .single (.drop hd' hc), rfl, pending.2, same⟩
    | @take d rest nodes c v hd hc hv =>
      rw [List.forall_mem_cons] at pending
      obtain ⟨c', hd', shuffled⟩ := pending.1.some hd
      rw [shuffled.id, ← reached_shuffled same] at hc
      have perm := shuffled.matching channel.attributes
      rw [hv, List.singleton_perm] at perm
      have selected : v ∈ c.matching channel.attributes := by simp [hv]
      have below : ∀ e ∈ v.dependencies, FindsAlike r r' e :=
        alike c (List.mem_of_find?_eq_some hd) v (List.mem_of_mem_filter selected)
      refine ⟨_, .single (.take hd' hc perm.symm), rfl, ?_, ?_⟩
      · exact List.forall_mem_append.2 ⟨below, pending.2⟩
      · exact List.rel_append same (.cons ⟨shuffled, rfl⟩ .nil)
  stops := by
    rintro _ ⟨_, nodes'⟩ e ⟨rfl, pending, same⟩ stops
    cases stops with
    | missing hd =>
      have hd' := (pending _ List.mem_cons_self).none hd
      exact ⟨_, .missing hd', rfl⟩
    | @unmatched d rest nodes c hd hc hm =>
      obtain ⟨c', hd', shuffled⟩ := (pending d List.mem_cons_self).some hd
      rw [shuffled.id, ← reached_shuffled same] at hc
      have perm := shuffled.matching channel.attributes
      rw [hm, List.nil_perm] at perm
      exact ⟨_, .unmatched hd' hc perm, by rw [shuffled.id]⟩
    | @ambiguous d rest nodes c hd hc hm =>
      obtain ⟨c', hd', shuffled⟩ := (pending d List.mem_cons_self).some hd
      rw [shuffled.id, ← reached_shuffled same] at hc
      -- The failure tells the number of matching variants, which no order changes.
      have length := (shuffled.matching channel.attributes).length_eq
      exact ⟨_, .ambiguous hd' hc (length ▸ hm), by rw [shuffled.id, length]⟩

theorem viewOf_shuffled {n m : Node} (h : n.Shuffled m) (wanted : AttributeSet) :
    viewOf wanted n = viewOf wanted m := by
  simp only [viewOf, h.component.choose wanted, Component.artifacts, h.component.id]

section Alike

variable (alike : ∀ c ∈ r.components, ∀ v ∈ c.variants, ∀ d ∈ v.dependencies, FindsAlike r r' d)
include alike

theorem resolve_of_findsAlike {q : Request}
    (declared : ∀ d ∈ q.channel.dependencies, FindsAlike r r' d) : r'.resolve q = r.resolve q := by
  have sim := simulation_of_findsAlike alike q.channel
  have start : SameState r r' (q.channel.dependencies, []) (q.channel.dependencies, []) :=
    ⟨rfl, declared, .nil⟩
  rw [resolve, resolve, nodes_eq_search, nodes_eq_search]
  cases hr : r.search q.channel q.channel.dependencies [] with
  | error e =>
    obtain ⟨_, he, rfl⟩ := sim.search_error start hr
    rw [he]
  | ok nodes =>
    obtain ⟨nodes', hn, same⟩ := sim.search_ok start hr
    have shuffled : List.Forall₂ Node.Shuffled nodes nodes' := same.nodes
    rw [hn]
    have artifacts : nodes.map (fun n => n.component.artifacts n.variant) =
        nodes'.map (fun n => n.component.artifacts n.variant) :=
      map_eq_of_forall₂ shuffled fun n m h => by
        rw [h.variant, Component.artifacts, Component.artifacts, h.component.id]
    have views : nodes.mapM (viewOf q.selection) = nodes'.mapM (viewOf q.selection) :=
      mapM_eq_of_forall₂ shuffled fun n m h => viewOf_shuffled h q.selection
    simp only [bind, Except.bind, List.flatMap_def, artifacts, views]

theorem dependsOn_of_findsAlike (h : r.Rearranged r') : r'.DependsOn = r.DependsOn := by
  funext a b
  simp only [DependsOn, ← Option.map_eq_some_iff]
  apply propext
  constructor
  · rintro ⟨c', hc', rfl, v, hv, d, hd, target⟩
    obtain ⟨c, hc, same⟩ := h.exists_original hc'
    have hv := same.variants.mem_iff.2 hv
    rw [(alike c hc v hv d hd).map_id] at target
    exact ⟨c, hc, same.id, v, hv, d, hd, target⟩
  · rintro ⟨c, hc, rfl, v, hv, d, hd, target⟩
    obtain ⟨c', hc', same⟩ := h.exists_shuffled hc
    rw [← (alike c hc v hv d hd).map_id] at target
    exact ⟨c', hc', same.id.symm, v, same.variants.mem_iff.1 hv, d, hd, target⟩

theorem validate_of_findsAlike (h : r.Rearranged r') :
    r'.validate = .ok () ↔ r.validate = .ok () := by
  simp only [validate_eq_ok_iff, Cyclic, dependsOn_of_findsAlike alike h]

end Alike

/-- Where each dependency selects at most one component, the order of the components, and of the
variants in each, changes no answer, through a view or without one, and no verdict on cycles. The
order of the variants alone changes no answer, whatever the dependencies select. -/
theorem resolve_rearranged (r r' : Repository) :
    (r.Rearranged r' →
      (∀ c ∈ r.components, ∀ v ∈ c.variants, ∀ d ∈ v.dependencies, r.SelectsOne d) →
      (∀ q : Request, (∀ d ∈ q.channel.dependencies, r.SelectsOne d) →
        r'.resolve q = r.resolve q) ∧ (r'.validate = .ok () ↔ r.validate = .ok ())) ∧
    (r.Shuffled r' → ∀ q : Request, r'.resolve q = r.resolve q) := by
  constructor
  · intro h one
    have alike : ∀ c ∈ r.components, ∀ v ∈ c.variants, ∀ d ∈ v.dependencies, FindsAlike r r' d :=
      fun c hc v hv d hd => h.findsAlike (one c hc v hv d hd)
    refine ⟨fun q declared => ?_, validate_of_findsAlike alike h⟩
    exact resolve_of_findsAlike alike fun d hd => h.findsAlike (declared d hd)
  · intro h q
    exact resolve_of_findsAlike (fun _ _ _ _ d _ => h.findsAlike d) fun d _ => h.findsAlike d

def turned (r : Repository) : Repository :=
  ⟨r.components.map fun c => ⟨c.id, c.variants.reverse⟩⟩

def mirrored (r : Repository) : Repository :=
  ⟨r.turned.components.reverse⟩

theorem shuffled_turned (r : Repository) : r.Shuffled r.turned :=
  List.forall₂_map_right_iff.2 (List.forall₂_same.2 fun _ _ => ⟨rfl, (List.reverse_perm _).symm⟩)

theorem rearranged_mirrored (r : Repository) : r.Rearranged r.mirrored := by
  refine ⟨r.components.reverse, (List.reverse_perm _).symm, ?_⟩
  exact List.rel_reverse r.shuffled_turned

def layered : Repository :=
  let debug (file : String) (dependencies : List Dependency) : Variant :=
    ⟨"debug", Channel.requestedAttributes .compile .debug, [⟨file⟩], dependencies⟩
  let release : Variant :=
    ⟨"release", Channel.requestedAttributes .compile .release, [⟨"/release"⟩], []⟩
  ⟨[⟨.project ":app", [release, debug "/app" [.module "" "Json" "", .project ":core"]]⟩,
    ⟨.project ":core", [debug "/core" [], release]⟩,
    ⟨.module "org" "Json" "1.0", [release, debug "/json" [.project ":core"]]⟩]⟩

def layeredCompile : Channel :=
  .ofBinary .compile .debug ⟨"implementation", [.project ":app"], by decide⟩

theorem resolve_rearranged_layered :
    let answer := .ok [⟨.project ":app", ⟨"/app"⟩⟩, ⟨.module "org" "Json" "1.0", ⟨"/json"⟩⟩,
      ⟨.project ":core", ⟨"/core"⟩⟩]
    let wide := layered.add ⟨.module "com" "Json" "2.0", []⟩
    layered.mirrored.resolve layeredCompile.request = answer ∧ layered.mirrored.validate = .ok () ∧
      wide.turned.resolve layeredCompile.request = answer ∧
      wide.mirrored.resolve layeredCompile.request ≠ answer := by
  intro answer wide
  have resolved : layered.resolve layeredCompile.request = answer := by cbv
  have valid : layered.validate = .ok () := by cbv
  have resolved' : wide.resolve layeredCompile.request = answer := by cbv
  obtain ⟨same, verdict⟩ := (resolve_rearranged layered layered.mirrored).1
    (rearranged_mirrored layered) (by decide)
  refine ⟨(same _ (by decide)).trans resolved, verdict.2 valid, ?_, ?_⟩
  · exact ((resolve_rearranged wide wide.turned).2 (shuffled_turned wide) _).trans resolved'
  · have missing : wide.mirrored.resolve layeredCompile.request =
        .error (.noMatchingVariant "com:Json:2.0" layeredCompile.attributes.text
          layeredCompile.name) := by cbv
    rw [missing]
    simp [answer]

end Repository

end NativeBuild
