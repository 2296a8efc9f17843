import Mathlib.Data.List.Nodup
import Mathlib.Logic.Relation
import BootEngine.Plan.Resolve

/-!
# What the providers tell of a list

The search for providers succeeds just on lists in which every key occurs once, every need has one
provider, needs do not point into the web layer from outside, and no component provides for itself.
What it finds is the graph of the needs: under the place of each component the places that it
depends on, each once.

Contents:
* `Provides`, `DependsOn`: the graph of a list, said by its keys and needs.
* `Satisfiable`: what the search asks of a list.
* `providerOf_eq_ok_iff`, `checkNeed_eq_ok_iff`: one need.
* `IsGraph`, `isGraph_of_allProviders`: the graph that the search finds.
* `satisfiable_of_allProviders`, `exists_allProviders`: when it succeeds.
-/

namespace BootEngine.Plan

open Component (Kind Key Need Descriptor)

/-! ## The graph of a list -/

/-- The component at a place satisfies a need. -/
def Provides (ds : List Descriptor) (need : Need) (place : Nat) : Prop :=
  ∃ d, ds[place]? = some d ∧ need.admits d.key = true

/-- The component at a place has a need that the one at `provider` satisfies. -/
def DependsOn (ds : List Descriptor) (place provider : Nat) : Prop :=
  ∃ d, ds[place]? = some d ∧ ∃ need ∈ d.needs, Provides ds need provider

/-- Every key occurs once, no component outside the web layer needs one inside it, and every need
    has exactly one provider: by name the component with that key, else the only one of its kind. -/
structure Satisfiable (ds : List Descriptor) : Prop where
  distinct : (ds.map (·.key)).Nodup
  direction : ∀ d ∈ ds, ∀ need ∈ d.needs, need.kind.isWeb = true → d.kind.isWeb = true
  provided : ∀ d ∈ ds, ∀ need ∈ d.needs, ∃! place, Provides ds need place

theorem Provides.lt_length {ds : List Descriptor} {need : Need} {place : Nat}
    (h : Provides ds need place) : place < ds.length := by
  obtain ⟨d, hd, -⟩ := h
  exact (List.getElem?_eq_some_iff.mp hd).1

theorem DependsOn.lt_length {ds : List Descriptor} {place provider : Nat}
    (h : DependsOn ds place provider) : place < ds.length ∧ provider < ds.length := by
  obtain ⟨d, hd, need, -, hp⟩ := h
  exact ⟨(List.getElem?_eq_some_iff.mp hd).1, hp.lt_length⟩

/-! ## Repeated keys -/

theorem firstRepeated?_eq_none_iff (seen keys : List Key) :
    firstRepeated? seen keys = none ↔ keys.Nodup ∧ ∀ key ∈ keys, key ∉ seen := by
  induction keys generalizing seen with
  | nil => simp [firstRepeated?]
  | cons key rest ih =>
    rw [firstRepeated?]
    split
    · next hseen =>
      rw [List.contains_iff_mem] at hseen
      refine ⟨fun h => (nomatch h), fun ⟨_, hfresh⟩ => ?_⟩
      exact absurd hseen (hfresh key (List.mem_cons_self ..))
    · next hseen =>
      rw [List.contains_iff_mem] at hseen
      rw [ih, List.nodup_cons, List.forall_mem_cons]
      constructor
      · rintro ⟨hnodup, hfresh⟩
        refine ⟨⟨fun hin => ?_, hnodup⟩, hseen, fun k hk hs => ?_⟩
        · exact hfresh key hin (List.mem_cons_self ..)
        · exact hfresh k hk (List.mem_cons_of_mem _ hs)
      · rintro ⟨⟨hnotin, hnodup⟩, -, hfresh⟩
        refine ⟨hnodup, fun k hk hs => ?_⟩
        rcases List.mem_cons.mp hs with rfl | hs
        · exact hnotin hk
        · exact hfresh k hk hs

/-! ## One need -/

section Need

variable {ds : List Descriptor} {need : Need} {d : Descriptor} {place provider : Nat}

theorem mem_placesOfKind (kind : Kind) :
    place ∈ placesOfKind ds kind ↔ Provides ds (.any kind) place := by
  rw [placesOfKind, List.mem_filter, List.mem_range, beq_iff_eq]
  constructor
  · rintro ⟨hlt, hkind⟩
    rw [List.getElem?_eq_getElem hlt] at hkind
    exact ⟨_, List.getElem?_eq_getElem hlt, Need.admits_any _ _ |>.mpr (Option.some.inj hkind)⟩
  · rintro ⟨c, hc, hadmits⟩
    refine ⟨(List.getElem?_eq_some_iff.mp hc).1, ?_⟩
    rw [hc]
    exact congrArg some ((Need.admits_any _ _).mp hadmits)

theorem placesOfKind_nodup (kind : Kind) : (placesOfKind ds kind).Nodup :=
  List.nodup_range.filter _

/-- Where keys occur once, a need by name has at most one provider. -/
theorem Provides.unique_of_named {kind : Kind} {name : String} {other : Nat}
    (hd : (ds.map (·.key)).Nodup) (hp : Provides ds (.named kind name) place)
    (ho : Provides ds (.named kind name) other) : place = other := by
  obtain ⟨c, hc, hadmits⟩ := hp
  obtain ⟨e, he, hadmits'⟩ := ho
  rw [Need.admits_named] at hadmits hadmits'
  have hkey : (ds.map (·.key))[place]? = some c.key := by rw [List.getElem?_map, hc]; rfl
  have hkey' : (ds.map (·.key))[other]? = some e.key := by rw [List.getElem?_map, he]; rfl
  have hlt := (List.getElem?_eq_some_iff.mp hkey).1
  exact (List.getElem?_inj hlt hd).mp (by rw [hkey, hkey', hadmits, hadmits'])

/-- Looking by name finds the component with the key. -/
theorem findIdx?_eq_some_iff_provides {kind : Kind} {name : String} (hd : (ds.map (·.key)).Nodup) :
    ds.findIdx? (·.key == ⟨kind, name⟩) = some place ↔ Provides ds (.named kind name) place := by
  have hfound : ∀ {p}, ds.findIdx? (·.key == ⟨kind, name⟩) = some p →
      Provides ds (.named kind name) p := by
    intro p hp
    obtain ⟨hlt, hkey, -⟩ := List.findIdx?_eq_some_iff_getElem.mp hp
    exact ⟨_, List.getElem?_eq_getElem hlt, (Need.admits_named ..).mpr (beq_iff_eq.mp hkey)⟩
  refine ⟨hfound, fun hp => ?_⟩
  cases hfind : ds.findIdx? (·.key == ⟨kind, name⟩) with
  | some p => rw [(hfound hfind).unique_of_named hd hp]
  | none =>
    obtain ⟨c, hc, hadmits⟩ := hp
    have hkey := List.findIdx?_eq_none_iff.mp hfind c (List.mem_of_getElem? hc)
    rw [(Need.admits_named ..).mp hadmits, beq_self_eq_true] at hkey
    cases hkey

/-- A list without repetitions is one place if that place is its only member. -/
theorem eq_singleton_iff_of_nodup {l : List Nat} (hl : l.Nodup) (p : Nat) :
    l = [p] ↔ p ∈ l ∧ ∀ q ∈ l, q = p := by
  rw [← List.perm_singleton, List.perm_ext_iff_of_nodup hl (List.nodup_singleton p)]
  simp only [List.mem_singleton]
  constructor
  · intro h
    exact ⟨(h p).mpr rfl, fun q => (h q).mp⟩
  · rintro ⟨hin, hall⟩ q
    exact ⟨hall q, fun he => he ▸ hin⟩

/-- The provider that is found for a need is the only one that there is. -/
theorem providerOf_eq_ok_iff (hd : (ds.map (·.key)).Nodup) :
    providerOf ds d need = .ok provider ↔
      Provides ds need provider ∧ ∀ p, Provides ds need p → p = provider := by
  obtain ⟨kind, name⟩ := need
  cases name with
  | some name =>
    have hfind : ds.findIdx? (·.key == ⟨kind, name⟩) = some provider ↔
        Provides ds ⟨kind, some name⟩ provider := findIdx?_eq_some_iff_provides hd
    have hok : providerOf ds d ⟨kind, some name⟩ = .ok provider ↔
        ds.findIdx? (·.key == ⟨kind, name⟩) = some provider := by
      rw [providerOf]
      dsimp only
      split
      · next p hp => rw [hp, Except.ok.injEq, Option.some.injEq]
      · next hp => rw [hp]; simp
    rw [hok, hfind]
    exact ⟨fun hp => ⟨hp, fun p ho => ho.unique_of_named hd hp⟩, And.left⟩
  | none =>
    have hsingle : placesOfKind ds kind = [provider] ↔
        Provides ds ⟨kind, none⟩ provider ∧ ∀ p, Provides ds ⟨kind, none⟩ p → p = provider := by
      rw [eq_singleton_iff_of_nodup (placesOfKind_nodup kind)]
      simp only [mem_placesOfKind]
      rfl
    rw [← hsingle]
    rw [providerOf]
    dsimp only
    split
    · next hp => rw [hp]; simp
    · next p hp => rw [hp]; simp
    · next hnil hone =>
      refine ⟨fun h => (nomatch h), fun h => absurd h (hone provider)⟩

/-- A need is satisfied if it has one provider, does not point into the web layer from outside, and
    is not satisfied by the component itself. -/
theorem checkNeed_eq_ok_iff (hd : (ds.map (·.key)).Nodup) :
    checkNeed ds place d need = .ok provider ↔
      (need.kind.isWeb = true → d.kind.isWeb = true) ∧
        (Provides ds need provider ∧ ∀ p, Provides ds need p → p = provider) ∧
          provider ≠ place := by
  rw [← providerOf_eq_ok_iff (d := d) hd, checkNeed]
  split
  · next hweb =>
    rw [Bool.and_eq_true, Bool.not_eq_true'] at hweb
    refine ⟨fun h => (nomatch h), fun ⟨hdir, _⟩ => ?_⟩
    rw [hdir hweb.1] at hweb
    cases hweb.2
  · next hweb =>
    have hdir : need.kind.isWeb = true → d.kind.isWeb = true := by
      intro hn
      rw [hn, Bool.true_and, Bool.not_eq_true, Bool.not_eq_false'] at hweb
      exact hweb
    cases hp : providerOf ds d need with
    | error e => simp
    | ok p =>
      dsimp only
      split
      · next he =>
        refine ⟨fun h => (nomatch h), fun ⟨_, h, hne⟩ => ?_⟩
        exact absurd (Except.ok.inj h ▸ he) hne
      · next he =>
        refine ⟨fun h => ⟨hdir, h, Except.ok.inj h ▸ he⟩, fun ⟨_, h, _⟩ => h⟩

end Need

/-! ## The needs of a component -/

section Needs

variable {ds : List Descriptor} {place : Nat} {d : Descriptor}

theorem mem_addPlace {places : List Nat} {p q : Nat} :
    p ∈ addPlace places q ↔ p ∈ places ∨ p = q := by
  unfold addPlace
  split
  · next hin =>
    rw [List.contains_iff_mem] at hin
    exact ⟨.inl, fun h => h.elim id fun he => he ▸ hin⟩
  · rw [List.mem_append, List.mem_singleton]

theorem nodup_addPlace {places : List Nat} {q : Nat} (hp : places.Nodup) :
    (addPlace places q).Nodup := by
  unfold addPlace
  split
  · exact hp
  · next hin =>
    rw [List.contains_iff_mem] at hin
    exact List.nodup_append.mpr ⟨hp, List.nodup_singleton q, fun a ha b hb hab =>
      hin (List.mem_singleton.mp hb ▸ hab ▸ ha)⟩

/-- The needs that are looked at add their providers, each once. -/
theorem collectNeeds_eq_ok {needs : List Need} {found providers : List Nat}
    (h : collectNeeds ds place d found needs = .ok providers) :
    (∀ need ∈ needs, ∃ p, checkNeed ds place d need = .ok p) ∧
      (∀ p, p ∈ providers ↔ p ∈ found ∨ ∃ need ∈ needs, checkNeed ds place d need = .ok p) ∧
        (found.Nodup → providers.Nodup) := by
  induction needs generalizing found with
  | nil =>
    obtain rfl := Except.ok.inj h
    refine ⟨fun _ hn => (nomatch hn), fun p => ⟨.inl, fun h => ?_⟩, id⟩
    exact h.elim id fun ⟨_, hn, _⟩ => nomatch hn
  | cons need rest ih =>
    rw [collectNeeds] at h
    split at h
    · cases h
    · next q hq =>
      obtain ⟨hall, hmem, hnodup⟩ := ih h
      refine ⟨List.forall_mem_cons.mpr ⟨⟨q, hq⟩, hall⟩, fun p => ?_, fun hf =>
        hnodup (nodup_addPlace hf)⟩
      have hfirst : p = q ↔ checkNeed ds place d need = .ok p := by
        rw [hq, Except.ok.injEq, eq_comm]
      rw [hmem p, mem_addPlace, hfirst, or_assoc, List.exists_mem_cons_iff]

theorem exists_collectNeeds {needs : List Need}
    (h : ∀ need ∈ needs, ∃ p, checkNeed ds place d need = .ok p) (found : List Nat) :
    ∃ providers, collectNeeds ds place d found needs = .ok providers := by
  induction needs generalizing found with
  | nil => exact ⟨found, rfl⟩
  | cons need rest ih =>
    obtain ⟨⟨p, hp⟩, hrest⟩ := List.forall_mem_cons.mp h
    obtain ⟨providers, hall⟩ := ih hrest (addPlace found p)
    exact ⟨providers, by rw [collectNeeds, hp]; exact hall⟩

end Needs

/-! ## The whole list -/

section All

variable {ds : List Descriptor}

theorem providersFrom_eq_ok_iff {rest : List Descriptor} {place : Nat} {graph : List (List Nat)} :
    providersFrom ds place rest = .ok graph ↔ graph.length = rest.length ∧
      ∀ k d, rest[k]? = some d →
        ∃ providers, graph[k]? = some providers ∧ providersOf ds (place + k) d = .ok providers := by
  induction rest generalizing place graph with
  | nil =>
    rw [providersFrom, Except.ok.injEq, List.length_nil, List.length_eq_zero_iff]
    exact ⟨fun h => ⟨h.symm, fun _ _ hd => (nomatch hd)⟩, fun h => h.1.symm⟩
  | cons c rest ih =>
    rw [providersFrom]
    constructor
    · intro h
      split at h
      · cases h
      · next providers hp =>
        split at h
        · cases h
        · next others ho =>
          obtain rfl := Except.ok.inj h
          obtain ⟨hlen, hall⟩ := ih.mp ho
          refine ⟨congrArg Nat.succ hlen, fun k d hd => ?_⟩
          cases k with
          | zero =>
            obtain rfl := Option.some.inj hd
            exact ⟨providers, rfl, hp⟩
          | succ k =>
            obtain ⟨ps, hps, hof⟩ := hall k d hd
            exact ⟨ps, hps, by rwa [Nat.add_assoc, Nat.add_comm 1 k] at hof⟩
    · rintro ⟨hlen, hall⟩
      cases graph with
      | nil => cases hlen
      | cons providers others =>
        obtain ⟨ps, hps, hof⟩ := hall 0 c rfl
        obtain rfl := Option.some.inj hps
        have hrest : providersFrom ds (place + 1) rest = .ok others := by
          refine ih.mpr ⟨Nat.succ.inj hlen, fun k d hd => ?_⟩
          obtain ⟨qs, hqs, hof'⟩ := hall (k + 1) d hd
          exact ⟨qs, hqs, by rwa [Nat.add_assoc, Nat.add_comm 1 k]⟩
        rw [show providersOf ds place c = .ok providers from hof, hrest]

/-- A graph of a list: under the place of each component the places that it depends on, each once,
    itself not among them. -/
structure IsGraph (ds : List Descriptor) (graph : List (List Nat)) : Prop where
  length : graph.length = ds.length
  nodup : ∀ providers ∈ graph, providers.Nodup
  mem_iff : ∀ place provider, provider ∈ graph[place]?.getD [] ↔ DependsOn ds place provider
  irrefl : ∀ place, ¬ DependsOn ds place place

/-- The providers of a component are found if each of its needs has one. -/
theorem providersOf_eq_ok (hs : Satisfiable ds) {place : Nat} {d : Descriptor}
    (hd : ds[place]? = some d) {providers : List Nat}
    (h : providersOf ds place d = .ok providers) :
    providers.Nodup ∧ (∀ p, p ∈ providers ↔ DependsOn ds place p) ∧ ¬ DependsOn ds place place := by
  obtain ⟨hall, hmem, hnodup⟩ := collectNeeds_eq_ok h
  have hin : ∀ p, p ∈ providers ↔ DependsOn ds place p := by
    intro p
    rw [hmem, or_iff_right List.not_mem_nil]
    constructor
    · rintro ⟨need, hneed, hp⟩
      exact ⟨d, hd, need, hneed, ((checkNeed_eq_ok_iff hs.distinct).mp hp).2.1.1⟩
    · rintro ⟨e, he, need, hneed, hp⟩
      obtain rfl := Option.some.inj (hd.symm.trans he)
      obtain ⟨q, hq⟩ := hall need hneed
      have hunique := ((checkNeed_eq_ok_iff hs.distinct).mp hq).2.1.2
      exact ⟨need, hneed, hunique p hp ▸ hq⟩
  refine ⟨hnodup List.nodup_nil, hin, fun hself => ?_⟩
  rcases (hmem place).mp ((hin place).mpr hself) with hf | ⟨need, -, hp⟩
  · exact List.not_mem_nil hf
  · exact ((checkNeed_eq_ok_iff hs.distinct).mp hp).2.2 rfl

theorem satisfiable_of_allProviders {graph : List (List Nat)} (h : allProviders ds = .ok graph) :
    Satisfiable ds := by
  rw [allProviders] at h
  split at h
  · cases h
  · next hrepeated =>
    have hdistinct := ((firstRepeated?_eq_none_iff _ _).mp hrepeated).1
    obtain ⟨-, hall⟩ := providersFrom_eq_ok_iff.mp h
    have hneed : ∀ d ∈ ds, ∀ need ∈ d.needs, ∃ place p, checkNeed ds place d need = .ok p := by
      intro d hd need hneed
      obtain ⟨place, hplace⟩ := List.mem_iff_getElem?.mp hd
      obtain ⟨providers, -, hof⟩ := hall place d hplace
      exact ⟨0 + place, (collectNeeds_eq_ok hof).1 need hneed⟩
    refine ⟨hdistinct, fun d hd need hn => ?_, fun d hd need hn => ?_⟩
    · obtain ⟨place, p, hp⟩ := hneed d hd need hn
      exact ((checkNeed_eq_ok_iff hdistinct).mp hp).1
    · obtain ⟨place, p, hp⟩ := hneed d hd need hn
      exact ⟨p, ((checkNeed_eq_ok_iff hdistinct).mp hp).2.1⟩

/-- The search finds a graph of the list. -/
theorem isGraph_of_allProviders {graph : List (List Nat)} (h : allProviders ds = .ok graph) :
    IsGraph ds graph := by
  have hs := satisfiable_of_allProviders h
  rw [allProviders] at h
  split at h
  · cases h
  · obtain ⟨hlen, hall⟩ := providersFrom_eq_ok_iff.mp h
    have hplace : ∀ place d, ds[place]? = some d →
        ∃ providers, graph[place]? = some providers ∧ providers.Nodup ∧
          (∀ p, p ∈ providers ↔ DependsOn ds place p) ∧ ¬ DependsOn ds place place := by
      intro place d hd
      obtain ⟨providers, hp, hof⟩ := hall place d hd
      rw [Nat.zero_add] at hof
      exact ⟨providers, hp, providersOf_eq_ok hs hd hof⟩
    refine ⟨hlen, fun providers hin => ?_, fun place provider => ?_, fun place hself => ?_⟩
    · obtain ⟨place, hp⟩ := List.mem_iff_getElem?.mp hin
      have hlt := (List.getElem?_eq_some_iff.mp hp).1
      obtain ⟨ps, hps, hnodup, -⟩ := hplace place _ (List.getElem?_eq_getElem (hlen ▸ hlt))
      rw [hps] at hp
      exact Option.some.inj hp ▸ hnodup
    · rcases Nat.lt_or_ge place ds.length with hlt | hge
      · obtain ⟨ps, hps, -, hmem, -⟩ := hplace place _ (List.getElem?_eq_getElem hlt)
        rw [hps]
        exact hmem provider
      · rw [List.getElem?_eq_none (hlen ▸ hge)]
        exact ⟨fun hn => (nomatch hn), fun hd => absurd hd.lt_length.1 (Nat.not_lt.mpr hge)⟩
    · obtain ⟨ps, -, -, -, hirrefl⟩ :=
        hplace place _ (List.getElem?_eq_getElem hself.lt_length.1)
      exact hirrefl hself

/-- The search succeeds on a list that can be satisfied and in which nothing provides for itself. -/
theorem exists_allProviders (hs : Satisfiable ds) (hi : ∀ place, ¬ DependsOn ds place place) :
    ∃ graph, allProviders ds = .ok graph := by
  have hof : ∀ place d, ds[place]? = some d → ∃ providers, providersOf ds place d = .ok providers := by
    intro place d hd
    refine exists_collectNeeds (fun need hneed => ?_) []
    have hin := List.mem_of_getElem? hd
    obtain ⟨p, hp, hunique⟩ := hs.provided d hin need hneed
    refine ⟨p, (checkNeed_eq_ok_iff hs.distinct).mpr
      ⟨hs.direction d hin need hneed, ⟨hp, hunique⟩, ?_⟩⟩
    rintro rfl
    exact hi p ⟨d, hd, need, hneed, hp⟩
  choose providers hproviders using hof
  have hnone := (firstRepeated?_eq_none_iff [] (ds.map (·.key))).mpr
    ⟨hs.distinct, fun _ _ => List.not_mem_nil⟩
  refine ⟨List.ofFn fun place : Fin ds.length => providers place _ (List.getElem?_eq_getElem place.2),
    ?_⟩
  rw [allProviders, hnone]
  refine providersFrom_eq_ok_iff.mpr ⟨List.length_ofFn, fun k d hd => ?_⟩
  obtain ⟨hlt, rfl⟩ := List.getElem?_eq_some_iff.mp hd
  refine ⟨providers k _ (List.getElem?_eq_getElem hlt), ?_, ?_⟩
  · rw [List.getElem?_ofFn, dif_pos hlt]
  · rw [Nat.zero_add]
    exact hproviders k _ _

end All

end BootEngine.Plan
