import BootEngine.Construction.Recipe
import BootEngine.Proofs.Discovery.Scan
import BootEngine.Proofs.Startup.Stages

/-!
# Roots of the settings

Dots at the end of a root do not count, and under a root that is empty without them lies everything.
Settings with a blank root are refused. But a root that consists of dots is not blank: it passes,
and then the scan takes every manifest there is. All other roots that pass keep the scan to the
manifests whose names begin with them.

Contents:
* `Confines`, `IsDots`: roots that keep to what begins with them, and roots that do not.
* `Settings.validate_eq_ok_iff`, `confines_iff_of_validate`: what the settings are checked for, and
  what follows for their roots.
* `scanManifests_filter_iff`: when a scan passes over manifests.
* `GetsTo.scan_roots`: the roots of a scan.
* `IsInside`, `isInside_of_isUnder_iff`: where roots point to, and when all that lies below them is
  there.
* `roots_confined_iff`: what the roots of the settings add to a scan.
-/

namespace BootEngine

/-! ## Roots -/

/-- A root keeps to itself: it is not empty without the dots at its end, and what lies under it
    begins with the rest. -/
def Confines (root : String) : Prop :=
  ∀ path, isUnder path root = true →
    trimDots root.toList ≠ [] ∧ trimDots root.toList <+: path.toList

/-- A root consists of dots, one at least. -/
def IsDots (root : String) : Prop := root.toList ≠ [] ∧ ∀ c ∈ root.toList, c = '.'

instance (root : String) : Decidable (IsDots root) :=
  decidable_of_iff (root.toList ≠ [] ∧ root.toList.all (· == '.') = true) (by simp [IsDots])

theorem trimDots_eq_nil_iff {cs : List Char} : trimDots cs = [] ↔ ∀ c ∈ cs, c = '.' := by
  rw [show trimDots cs = cs.rdropWhile (· == '.') from rfl, List.rdropWhile_eq_nil_iff]
  simp only [beq_iff_eq]

theorem trimDots_eq_nil_iff_isDots {root : String} (hne : root.toList ≠ []) :
    trimDots root.toList = [] ↔ IsDots root :=
  trimDots_eq_nil_iff.trans (and_iff_right hne).symm

/-- Everything lies under a root that is empty without the dots at its end. -/
theorem isUnder_of_trimDots {root : String} (h : trimDots root.toList = []) (path : String) :
    isUnder path root = true :=
  (isUnder_iff path root).mpr (.inl h)

/-- What lies under another root begins with it. -/
theorem isPrefix_of_isUnder {path root : String} (hne : trimDots root.toList ≠ [])
    (h : isUnder path root = true) : trimDots root.toList <+: path.toList := by
  rcases (isUnder_iff path root).mp h with hnone | hfront
  · exact absurd hnone hne
  · rcases splitOn_isPrefix_iff.mp hfront with hsame | ⟨rest, hmore⟩
    · exact hsame ▸ List.prefix_refl _
    · exact hmore ▸ List.prefix_append _ _

theorem confines_iff {root : String} : Confines root ↔ trimDots root.toList ≠ [] := by
  constructor
  · intro h hnone
    exact (h "" (isUnder_of_trimDots hnone "")).1 hnone
  · exact fun hne path h => ⟨hne, isPrefix_of_isUnder hne h⟩

/-! ## Settings that pass -/

/-- Settings pass if their limits are not zero and none of their roots is blank. -/
theorem Settings.validate_eq_ok_iff {s : Settings} :
    s.validate = .ok () ↔ s.disposeLimit ≠ 0 ∧ s.acquireLimit ≠ some 0 ∧
      ∀ root ∈ s.roots, Text.isBlank root = false := by
  have hfault : s.validate = .ok () ↔ s.fault? = none := by
    unfold validate
    cases s.fault? <;> simp
  rw [hfault, fault?]
  split
  · next hzero => simp [hzero]
  · next hdispose =>
    split
    · next hzero => simp [hzero]
    · next hacquire => simp [hdispose, hacquire]

/-- Of the roots that pass, those keep to themselves that do not consist of dots. -/
theorem confines_iff_of_validate {s : Settings} (h : s.validate = .ok ()) {root : String}
    (hin : root ∈ s.roots) : Confines root ↔ ¬ IsDots root := by
  have hblank := (Settings.validate_eq_ok_iff.mp h).2.2 root hin
  have hne : root.toList ≠ [] := by
    intro hnil
    rw [Text.isBlank, hnil] at hblank
    cases hblank
  rw [confines_iff, Ne, trimDots_eq_nil_iff_isDots hne]

/-- Settings that have been read have passed. -/
theorem Settings.validate_of_load {sources : List ConfigSource} {s : Settings}
    (h : Settings.load sources = .ok s) : s.validate = .ok () := by
  unfold load at h
  split at h
  · cases h
  · next t _ =>
    unfold ofTree at h
    split at h
    · cases h
    · next read _ =>
      split at h
      · cases h
      · next hvalid =>
        cases h
        exact hvalid

/-! ## Scans -/

/-- A scan goes by the names that lie under its roots. -/
theorem scanManifests_congr {roots others : List String} {ms : List Manifest}
    (h : ∀ m ∈ ms, roots.any (isUnder m.path) = others.any (isUnder m.path)) :
    scanManifests roots ms = scanManifests others ms := by
  induction ms with
  | nil => rfl
  | cons m rest ih =>
    have hrest := ih fun n hn => h n (List.mem_cons_of_mem _ hn)
    rw [scanManifests, scanManifests, hrest, h m (List.mem_cons_self ..)]

/-- A scan passes over all manifests whose names are of a kind, whatever they define, just if none
    of these names lies under its roots. -/
theorem scanManifests_filter_iff {roots : List String} {keep : String → Prop} [DecidablePred keep] :
    (∀ ms, scanManifests roots ms = scanManifests roots (ms.filter fun m => keep m.path)) ↔
      ∀ path, (∃ root ∈ roots, isUnder path root = true) → keep path := by
  constructor
  · intro h path hunder
    by_contra hout
    -- a manifest with a definition that cannot be registered is missed when it is passed over
    have hscan := h [⟨path, [⟨.service, "", none, [], none⟩]⟩]
    rw [List.filter_cons_of_neg (by simpa using hout), List.filter_nil, scanManifests.eq_2,
      if_pos (List.any_eq_true.mpr hunder)] at hscan
    cases hscan
  · intro h ms
    induction ms with
    | nil => rfl
    | cons m rest ih =>
      by_cases hunder : roots.any (isUnder m.path) = true
      · have hkeep := h m.path (List.any_eq_true.mp hunder)
        rw [List.filter_cons_of_pos (by simpa using hkeep), scanManifests, scanManifests, ih]
      · rw [scanManifests, if_neg hunder, ih]
        by_cases hkeep : keep m.path
        · rw [List.filter_cons_of_pos (by simpa using hkeep), scanManifests, if_neg hunder]
        · rw [List.filter_cons_of_neg (by simpa using hkeep)]

namespace Startup

/-- When it comes to a scan, the settings have been read, and their roots stand behind those of the
    program. -/
theorem GetsTo.scan_roots {inputs : Inputs} {scanner : Scanner} {r : Run}
    (h : GetsTo inputs (.scan scanner) r) :
    Settings.load inputs.config = .ok r.settings ∧
      r.roots = r.settings.roots.foldl addRoot inputs.roots := by
  obtain ⟨done, phase, made, hnext, hmid⟩ := h
  obtain rfl : Phase.componentRegistration = phase := Agenda.phase_of_next hnext
  obtain ⟨s, hs, hframe⟩ := hmid.frame
  have hread := hs.settings_eq ((Phase.mem_front_iff hmid.isFront).mpr (by decide))
  obtain ⟨hsettings, hroots⟩ := hframe.toSteady.settings (by decide)
  rw [hsettings, hroots]
  exact hread

/-- A name lies where roots point to: under a root of the program, or it begins with a root of the
    settings that is not empty without the dots at its end. -/
def IsInside (given configured : List String) (path : String) : Prop :=
  (∃ root ∈ given, isUnder path root = true) ∨
    ∃ root ∈ configured, trimDots root.toList ≠ [] ∧ trimDots root.toList <+: path.toList

instance (given configured : List String) : DecidablePred (IsInside given configured) :=
  fun _ => inferInstanceAs (Decidable (_ ∨ _))

section Inside

variable {given configured roots : List String}

/-- Below roots that were given and roots of settings that pass lies just what is inside, unless
    everything does. -/
theorem isInside_of_isUnder_iff
    (hroots : ∀ root, root ∈ roots ↔ root ∈ given ∨ root ∈ configured)
    (hconfines : ∀ root ∈ configured, Confines root ↔ ¬ IsDots root) :
    (∀ path, (∃ root ∈ roots, isUnder path root = true) → IsInside given configured path) ↔
      (∃ root ∈ given, trimDots root.toList = []) ∨ ∀ root ∈ configured, ¬ IsDots root := by
  constructor
  · intro hall
    by_contra hneither
    obtain ⟨hgiven, hdots⟩ := not_or.mp hneither
    push Not at hgiven hdots
    obtain ⟨root, hin, hroot⟩ := hdots
    -- the empty name lies under a root of dots, but begins with nothing
    have hnone : trimDots root.toList = [] := trimDots_eq_nil_iff.mpr hroot.2
    rcases hall "" ⟨root, (hroots root).mpr (.inr hin), isUnder_of_trimDots hnone ""⟩ with
      ⟨other, hother, hunder⟩ | ⟨other, -, hne, hfront⟩
    · exact hgiven other hother
        (List.prefix_nil.mp (isPrefix_of_isUnder (hgiven other hother) hunder))
    · exact hne (List.prefix_nil.mp hfront)
  · rintro hcase path ⟨root, hin, hunder⟩
    rcases (hroots root).mp hin with hin | hin
    · exact .inl ⟨root, hin, hunder⟩
    · rcases hcase with ⟨other, hother, hnone⟩ | hdots
      · exact .inl ⟨other, hother, isUnder_of_trimDots hnone path⟩
      · exact .inr ⟨root, hin, (hconfines root hin).mpr (hdots root hin) path hunder⟩

/-- Below a root of dots a scan takes everything. -/
theorem scanManifests_of_isDots {root : String} (hin : root ∈ roots) (hdots : IsDots root)
    (ms : List Manifest) : scanManifests roots ms = scanManifests [""] ms := by
  refine scanManifests_congr fun m _ => ?_
  have hempty : [""].any (isUnder m.path) = true :=
    List.any_eq_true.mpr ⟨"", List.mem_singleton_self _, isUnder_of_trimDots rfl m.path⟩
  rw [hempty, List.any_eq_true]
  exact ⟨root, hin, isUnder_of_trimDots (trimDots_eq_nil_iff.mpr hdots.2) m.path⟩

end Inside

/-- What settings that pass add to the roots of a scan. Of their roots just those keep to themselves
    that do not consist of dots. When a run that has read these settings comes to a scan, the scan
    passes over all manifests that neither lie under a root of the program nor begin with one of the
    settings, whatever manifests there are, if and only if a root of the program takes everything
    anyway or no root of the settings consists of dots. If one does, every scan is one of
    everything. -/
theorem roots_confined_iff {s : Settings} (hvalid : s.validate = .ok ()) :
    (∀ root ∈ s.roots, Confines root ↔ ¬ IsDots root) ∧
    ∀ inputs, Settings.load inputs.config = .ok s → ∀ scanner r, GetsTo inputs (.scan scanner) r →
      ((∀ ms, scanManifests r.roots ms = scanManifests r.roots
          (ms.filter fun m => IsInside inputs.roots s.roots m.path)) ↔
        (∃ root ∈ inputs.roots, trimDots root.toList = []) ∨ ∀ root ∈ s.roots, ¬ IsDots root) ∧
      ((∃ root ∈ s.roots, IsDots root) →
        ∀ ms, scanManifests r.roots ms = scanManifests [""] ms) := by
  have hconfines : ∀ root ∈ s.roots, Confines root ↔ ¬ IsDots root := fun root hin =>
    confines_iff_of_validate hvalid hin
  refine ⟨hconfines, fun inputs hload scanner r hr => ?_⟩
  obtain ⟨hread, hroots⟩ := hr.scan_roots
  obtain rfl : r.settings = s := Except.ok.inj (hread.symm.trans hload)
  have hmem : ∀ root, root ∈ r.roots ↔ root ∈ inputs.roots ∨ root ∈ r.settings.roots := by
    intro root
    rw [hroots, mem_foldl_addRoot]
  constructor
  · rw [scanManifests_filter_iff]
    exact isInside_of_isUnder_iff hmem hconfines
  · rintro ⟨root, hin, hdots⟩ ms
    exact scanManifests_of_isDots ((hmem root).mpr (.inr hin)) hdots ms

/-- A shop that is scanned below its own name and below a root of the settings. Besides a service of
    its own there is one of another shop. -/
def shopWithRoot (root : String) : Builder :=
  let built (typeName : String) : Option Factory := some (Recipe.factory ⟨[], typeName, none⟩)
  { Builder.empty with
    roots := ["shop"]
    config := [.file [("scan", .table [("namespaces", .list [.text root])])]]
    manifests := [⟨"shop.stock", [⟨.service, "shop::Stock", none, [], built "Stock"⟩]⟩,
      ⟨"other", [⟨.service, "other::Audit", none, [], built "Audit"⟩]⟩]
    source := some (.pool (.ofSize "db" 1)) }

theorem roots_confined_iff_orders :
    let b := shopWithRoot "orders."
    ∃ s r, Settings.load b.config = .ok s ∧ s.validate = .ok () ∧
      GetsTo (b.inputs .still) (.scan (.ofManifests b.manifests)) r ∧ "orders." ∈ s.roots ∧
      Confines "orders." ∧ ∀ ms, scanManifests r.roots ms = scanManifests r.roots
        (ms.filter fun m => IsInside ["shop"] s.roots m.path) := by
  intro b
  obtain ⟨s, hload, hroots⟩ : ∃ s, Settings.load b.config = .ok s ∧ s.roots = ["orders."] :=
    ⟨_, rfl, rfl⟩
  obtain ⟨r, hgets⟩ : ∃ r, GetsTo (b.inputs .still) (.scan (.ofManifests b.manifests)) r :=
    ⟨_, [.configuration, .coreInfrastructure, .featureRegistration], .componentRegistration, [],
      List.prefix_append [_] _, by decide, List.nil_prefix, _, ⟨by decide, rfl⟩, rfl⟩
  have hvalid := Settings.validate_of_load hload
  have hin : "orders." ∈ s.roots := hroots ▸ List.mem_singleton_self _
  have hdots : ∀ root ∈ s.roots, ¬ IsDots root := by
    rw [hroots]
    decide
  obtain ⟨hconfines, hruns⟩ := roots_confined_iff hvalid
  exact ⟨s, r, hload, hvalid, hgets, hin, (hconfines _ hin).mpr (by decide),
    (hruns (b.inputs .still) hload _ r hgets).1.mpr (.inr hdots)⟩

/-- With a root of one dot the settings pass, and the service of the other shop is built. -/
theorem root_of_dots_takes_everything :
    let inputs := (shopWithRoot ".").inputs .still
    Settings.load inputs.config = .ok inputs.settings ∧ inputs.settings.validate = .ok () ∧
      "." ∈ inputs.settings.roots ∧ isUnder "other" "." = true ∧ trimDots ".".toList = [] ∧
      ¬ IsInside inputs.roots inputs.settings.roots "other" ∧
      .create ⟨.service, "Audit"⟩ ∈ callsOf (Executor.ofInputs inputs).execute.1 := by
  refine ⟨rfl, rfl, by decide, by decide, by decide, by decide, by decide⟩

end Startup

end BootEngine
