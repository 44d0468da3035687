import NativeBuild.Channel.Registry
import NativeBuild.Proofs.ModuleMap.Aggregation
import NativeBuild.Proofs.Repository.Reordering

namespace NativeBuild.ModuleMap

/-- Maps with the same distinct names and, under each, the same headers in whatever order. -/
structure Regrouped (maps maps' : List ModuleMap) : Prop where
  distinct : (maps.map (·.name)).Nodup
  names : (maps.map (·.name)).Perm (maps'.map (·.name))
  headers : ∀ m ∈ maps, ∀ m' ∈ maps', m.name = m'.name → m.headers.Perm m'.headers

theorem grouped_perm {artifacts artifacts' : List Artifact} (h : artifacts.Perm artifacts') :
    Regrouped (grouped (headerPairs artifacts)) (grouped (headerPairs artifacts')) where
  distinct := nodup_names_grouped
  names := by
    refine (List.perm_ext_iff_of_nodup nodup_names_grouped nodup_names_grouped).2 fun name => ?_
    simp only [names_grouped, names_headerPairs, List.mem_eraseDups]
    exact (h.filterMap _).mem_iff
  headers m hm m' hm' e := by
    rw [headers_of_mem_grouped hm, headers_of_mem_grouped hm', ← e]
    exact ((h.filterMap _).filter _).map _

theorem aggregate_perm {artifacts artifacts' : List Artifact} (h : artifacts.Perm artifacts')
    {maps : List ModuleMap} (hm : aggregate artifacts = .ok maps) :
    ∃ maps', aggregate artifacts' = .ok maps' ∧ Regrouped maps maps' := by
  obtain ⟨known, rfl⟩ := aggregate_eq_ok.1 hm
  have known' : ∀ a ∈ artifacts', a.producer.isUnknown = false :=
    fun a ha => known a (h.mem_iff.2 ha)
  exact ⟨_, aggregate_eq_ok.2 ⟨known', rfl⟩, grouped_perm h⟩

theorem ofResolution_eq_ok {answer : Resolution} {maps : List ModuleMap} :
    ofResolution answer = .ok maps ↔
      ∃ artifacts, answer = .ok artifacts ∧ aggregate artifacts = .ok maps := by
  cases answer with
  | error e => simp [ofResolution, Except.mapError, bind, Except.bind]
  | ok artifacts => simp [ofResolution, Except.mapError, bind, Except.bind]

section Reordered

variable {r r' : Repository} {channel channel' : Channel}
variable (hr : r.Reordered r') (hc : channel.Reordered channel')
include hr hc

theorem ofResolution_reordered {maps : List ModuleMap}
    (h : ofResolution (r.resolve (request channel)) = .ok maps) :
    ∃ maps', ofResolution (r'.resolve (request channel')) = .ok maps' ∧ Regrouped maps maps' := by
  obtain ⟨artifacts, ha, hm⟩ := ofResolution_eq_ok.1 h
  obtain ⟨artifacts', ha', hp⟩ := Repository.resolve_reordered hr hc (some view) ha
  obtain ⟨maps', hm', same⟩ := aggregate_perm hp hm
  exact ⟨maps', ofResolution_eq_ok.2 ⟨artifacts', ha', hm'⟩, same⟩

/-- The order of dependencies, of a channel or of variants, decides neither whether anything is
resolved, through a view or without one, nor which artifacts it is resolved to, and each as often.
Module maps have the same names then, and the same headers under each. -/
theorem resolved_in_any_order :
    (∀ view : Option AttributeSet,
      ((∃ artifacts, r.resolve ⟨channel, view⟩ = .ok artifacts) ↔
        ∃ artifacts, r'.resolve ⟨channel', view⟩ = .ok artifacts) ∧
      ∀ artifacts artifacts', r.resolve ⟨channel, view⟩ = .ok artifacts →
        r'.resolve ⟨channel', view⟩ = .ok artifacts' → artifacts.Perm artifacts') ∧
    ((∃ maps, ofResolution (r.resolve (request channel)) = .ok maps) ↔
      ∃ maps, ofResolution (r'.resolve (request channel')) = .ok maps) ∧
    ∀ maps maps', ofResolution (r.resolve (request channel)) = .ok maps →
      ofResolution (r'.resolve (request channel')) = .ok maps' → Regrouped maps maps' := by
  refine ⟨fun view => ?_, ?_⟩
  · apply ok_alike
    · exact fun _ h => Repository.resolve_reordered hr hc view h
    · exact fun _ h => Repository.resolve_reordered hr.symm hc.symm view h
  · apply ok_alike
    · exact fun _ h => ofResolution_reordered hr hc h
    · exact fun _ h => ofResolution_reordered hr.symm hc.symm h

end Reordered

def knot (needs : List Dependency) : Repository where
  components := [
    ⟨.project ":app", [⟨"interface", Channel.requestedAttributes .compile .debug,
      [⟨"/app.swiftmodule"⟩], needs⟩]⟩,
    ⟨.project ":core", [⟨"headers", (Channel.requestedAttributes .compile .debug).merge view,
      [⟨"/core.h"⟩], [.project ":app"]⟩]⟩,
    ⟨.module "org" "core" "1.0", [⟨"headers",
      (Channel.requestedAttributes .compile .debug).merge view, [⟨"/org/core.h"⟩], []⟩]⟩]

theorem knot_reordered {needs needs' : List Dependency} (h : needs.Perm needs') :
    (knot needs).Reordered (knot needs') :=
  .cons ⟨rfl, .cons ⟨rfl, rfl, rfl, h⟩ .nil⟩ (.cons (.refl _) (.cons (.refl _) .nil))

def knotCompile (dependencies : List Dependency) (h : dependencies.Nodup) : Channel :=
  .ofBinary .compile .debug ⟨"implementation", dependencies, h⟩

theorem resolved_in_any_order_knot :
    let r := knot [.project ":core", .module "org" "core" ""]
    let r' := knot [.module "org" "core" "", .project ":core"]
    let channel := knotCompile [.project ":app", .module "" "core" ""] (by decide)
    let channel' := knotCompile [.module "" "core" "", .project ":app"] (by decide)
    let maps := [⟨"core", ["/core.h", "/org/core.h"]⟩]
    let maps' := [⟨"core", ["/org/core.h", "/core.h"]⟩]
    r.Reordered r' ∧ channel.Reordered channel' ∧
      ofResolution (r.resolve (request channel)) = .ok maps ∧
      ofResolution (r'.resolve (request channel')) = .ok maps' ∧ Regrouped maps maps' ∧
      ∃ artifacts, r.resolve channel'.request = .ok artifacts := by
  intro r r' channel channel' maps maps'
  have hr : r.Reordered r' := knot_reordered (by decide)
  have hc : channel.Reordered channel' := ⟨rfl, by decide⟩
  have hm : ofResolution (r.resolve (request channel)) = .ok maps := by cbv
  have hm' : ofResolution (r'.resolve (request channel')) = .ok maps' := by cbv
  have found : ∃ artifacts, r.resolve channel.request = .ok artifacts := ⟨_, by cbv⟩
  exact ⟨hr, hc, hm, hm', (resolved_in_any_order hr hc).2.2 _ _ hm hm',
    ((resolved_in_any_order (.refl r) hc).1 none).1.1 found⟩

end NativeBuild.ModuleMap
