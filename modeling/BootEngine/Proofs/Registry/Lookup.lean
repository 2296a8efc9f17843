import Mathlib.Data.List.Nodup
import BootEngine.Registry.Injection

/-!
# What a registry finds

An open registry hands out the component that a need asks for if the need admits one of its keys and
no other, whether the need names it or not. A request for a type can then go wrong in one way only:
the component is of another type.

Contents:
* `Registry.find?_eq_some_of_mem`, `Registry.find?_eq_none_iff`: the component under a key.
* `Registry.exists_get_of_mem`, `Registry.get_of_admits`: a component by its key, and the one that a
  need asks for.
* `Answers`, `Registry.answers_of_get`: requests for a type.
* `Injection.answers_resolve`, `Injection.answers_resolveAny`: the requests of a component that is
  being built.
-/

namespace BootEngine

open Component (Kind Key Need Instance)

namespace Registry

variable {r : Registry} {key : Key} {item : Instance}

/-- Where keys do not repeat, each component is found under its key. -/
theorem find?_eq_some_of_mem (hnodup : (r.entries.map Prod.fst).Nodup)
    (hin : (key, item) ∈ r.entries) : r.find? key = some item := by
  rw [find?, List.lookup_eq_some_iff]
  obtain ⟨before, after, hsplit⟩ := List.append_of_mem hin
  refine ⟨before, after, hsplit, fun entry hentry => ?_⟩
  rw [hsplit, List.map_append, List.map_cons] at hnodup
  have hapart := (List.nodup_append.mp hnodup).2.2 entry.1 (List.mem_map_of_mem hentry) key
    (List.mem_cons_self ..)
  exact bne_iff_ne.mpr (Ne.symm hapart)

theorem find?_eq_none_iff : r.find? key = none ↔ key ∉ r.entries.map Prod.fst := by
  rw [find?, List.lookup_eq_none_iff, List.mem_map]
  constructor
  · rintro h ⟨entry, hin, rfl⟩
    exact absurd (h entry hin) (by simp)
  · intro h entry hin
    exact bne_iff_ne.mpr fun he => h ⟨entry, hin, he.symm⟩

/-- An open registry hands out what is registered under a key. -/
theorem exists_get_of_mem (hopen : r.closed = false) (hin : key ∈ r.entries.map Prod.fst) :
    ∃ item, r.get key.kind (some key.name) = .ok item := by
  cases hfind : r.find? key with
  | none => exact absurd hin (find?_eq_none_iff.mp hfind)
  | some item =>
    refine ⟨item, ?_⟩
    simp only [get, hopen, Bool.false_eq_true, if_false, hfind]

/-- A need that admits the key of a component, and no other key of the registry, gets that
    component. -/
theorem get_of_admits {need : Need} (hopen : r.closed = false)
    (hnodup : (r.entries.map Prod.fst).Nodup) (hin : (key, item) ∈ r.entries)
    (hadmits : need.admits key = true)
    (honly : ∀ other ∈ r.entries.map Prod.fst, need.admits other = true → other = key) :
    r.get need.kind need.name = .ok item := by
  obtain ⟨kind, name⟩ := need
  unfold get
  cases name with
  | some name =>
    obtain rfl := (Need.admits_named kind name key).mp hadmits
    simp only [hopen, Bool.false_eq_true, if_false, find?_eq_some_of_mem hnodup hin]
  | none =>
    have hkind : key.kind = kind := (Need.admits_any kind key).mp hadmits
    have hsingle : r.ofKind kind = [(key, item)] := by
      have hentries : (r.ofKind kind).Nodup := hnodup.of_map.filter _
      have hmem : (key, item) ∈ r.ofKind kind :=
        List.mem_filter.mpr ⟨hin, beq_iff_eq.mpr hkind⟩
      rw [← List.perm_singleton, List.perm_ext_iff_of_nodup hentries (List.nodup_singleton _)]
      intro entry
      rw [List.mem_singleton]
      refine ⟨fun hentry => ?_, fun he => he ▸ hmem⟩
      obtain ⟨hentry, hk⟩ := List.mem_filter.mp hentry
      have hkey : entry.1 = key :=
        honly _ (List.mem_map_of_mem hentry) ((Need.admits_any kind _).mpr (beq_iff_eq.mp hk))
      exact List.inj_on_of_nodup_map hnodup hentry hin hkey
    simp only [hopen, Bool.false_eq_true, if_false, hsingle]

end Registry

/-! ## Requests for a type -/

/-- A request for a type is answered by a component: it is handed out if it is of that type, and
    otherwise the answer says of which type it is. -/
def Answers (ask : String → Except DependencyError Instance) (request : String) (item : Instance) :
    Prop :=
  ∀ typeName, ask typeName =
    if item.typeName = typeName then .ok item
    else .error (.typeMismatch request typeName item.typeName)

theorem Registry.answers_of_get {r : Registry} {kind : Kind} {name : Option String}
    {item : Instance} (h : r.get kind name = .ok item) :
    Answers (r.typed kind name) (Component.requestText kind name) item := by
  intro typeName
  rw [Registry.typed, h]
  simp only [beq_iff_eq]

namespace Injection

variable {i : Injection} {need : Need} {item : Instance}

/-- A component that is being built gets what it has declared by name. -/
theorem answers_resolve {name : String} (hneed : need ∈ i.descriptor.needs)
    (hname : need.name = some name) (h : i.registry.get need.kind need.name = .ok item) :
    Answers (i.resolve need.kind name) need.text item := by
  intro typeName
  have hdeclared : (i.descriptor.needs.any (·.admits ⟨need.kind, name⟩)) = true := by
    refine List.any_eq_true.mpr ⟨need, hneed, ?_⟩
    rw [Need.admits, hname, beq_self_eq_true, Bool.true_and]
    exact beq_self_eq_true name
  rw [resolve, if_pos hdeclared, ← hname]
  exact Registry.answers_of_get h typeName

/-- A component that is being built gets for a kind what its first need of that kind asks for. -/
theorem answers_resolveAny (hfirst : i.descriptor.needs.find? (·.kind == need.kind) = some need)
    (h : i.registry.get need.kind need.name = .ok item) :
    Answers (i.resolveAny need.kind) need.text item := by
  intro typeName
  rw [resolveAny, hfirst]
  exact Registry.answers_of_get h typeName

end Injection

end BootEngine
