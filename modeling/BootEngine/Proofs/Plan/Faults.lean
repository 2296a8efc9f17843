import BootEngine.Proofs.Plan.Arrangement
import BootEngine.Proofs.Plan.Cycles

/-!
# What is wrong with a list

Why a list of components has no plan, said by its keys and needs. Keys that occur twice come first,
then the first need that something is wrong with, in the order of the components and of the needs of
each; and where nothing is wrong with any key or need, the components go round in a circle. What a
list without a plan is refused with is what is wrong with it.

Contents:
* `Request`, `requests`: the needs of a list, one after another.
* `Fault`: what is wrong with a need; `fault_of_checkNeed`, `not_fault_of_checkNeed`.
* `IsCycle`: components that go round in a circle.
* `Diagnosis`: what is wrong with a list.
* `providersFrom_eq_error_iff`, `firstRepeated?_eq_some_iff`: the first fault that is found.
* `IsLoop.isCycle`: a cycle of places is one of components.
* `resolve_diagnoses`: lists without a plan are refused with what is wrong with them.
-/

namespace BootEngine.Plan

open Component (Kind Key Need Descriptor)

/-! ## What can be wrong -/

/-- A need of the component at a place. -/
structure Request where
  place : Nat
  requester : Descriptor
  need : Need

/-- The needs of components that stand from a place on, in the order of the components and of the
    needs of each. -/
def requestsFrom : Nat → List Descriptor → List Request
  | _, [] => []
  | place, d :: rest => d.needs.map (fun need => ⟨place, d, need⟩) ++ requestsFrom (place + 1) rest

/-- The needs of a list of components. -/
def requests (ds : List Descriptor) : List Request := requestsFrom 0 ds

/-- A need does not point into the web layer from outside. -/
def Request.IsAllowed (r : Request) : Prop :=
  r.need.kind.isWeb = true → r.requester.kind.isWeb = true

/-- What is wrong with a need. Nobody is looked for if the need is not allowed. -/
inductive Fault (ds : List Descriptor) (r : Request) : DependencyError → Prop where
  | wrongDirection (hdirection : ¬ r.IsAllowed) :
      Fault ds r (.wrongDirection r.requester.key.text r.need.text)
  | unresolved (hallowed : r.IsAllowed) (hnobody : ∀ place, ¬ Provides ds r.need place) :
      Fault ds r (.unresolved r.requester.key.text r.need.text)
  | ambiguous (hallowed : r.IsAllowed) {place other : Nat} (hapart : place ≠ other)
      (hplace : Provides ds r.need place) (hother : Provides ds r.need other) :
      Fault ds r (.ambiguous r.need.kind.name
        ((ds.filter (·.kind == r.need.kind)).map (·.registeredName)))
  | itself (hallowed : r.IsAllowed) (hself : ∀ place, Provides ds r.need place ↔ place = r.place) :
      Fault ds r (.cyclic [r.requester.key.text, r.requester.key.text])

/-- Components of a list that go round in a circle: from `first` through `rest` back to `first` each
    needs the next one, and no other comes twice. -/
structure IsCycle (ds : List Descriptor) (first : Descriptor) (rest : List Descriptor) : Prop where
  subset : first :: rest ⊆ ds
  distinct : ((first :: rest).map (·.key.text)).Nodup
  several : rest ≠ []
  linked : (first :: rest ++ [first]).IsChain Needs

/-- What is wrong with a list: the first component with a key that has occurred before; if there is
    none, the first need that something is wrong with; if there is none either, a circle. -/
inductive Diagnosis (ds : List Descriptor) : DependencyError → Prop where
  | repeated {before after : List Descriptor} {d : Descriptor} (hsplit : ds = before ++ d :: after)
      (hdistinct : (before.map (·.key)).Nodup) (hseen : d.key ∈ before.map (·.key)) :
      Diagnosis ds (.duplicate d.key.text)
  | faulty (hdistinct : (ds.map (·.key)).Nodup) {before after : List Request} {r : Request}
      (hsplit : requests ds = before ++ r :: after)
      (hfirst : ∀ earlier ∈ before, ∀ e, ¬ Fault ds earlier e) {e : DependencyError}
      (hfault : Fault ds r e) :
      Diagnosis ds e
  | circular (hdistinct : (ds.map (·.key)).Nodup)
      (hnone : ∀ r ∈ requests ds, ∀ e, ¬ Fault ds r e)
      {first : Descriptor} {rest : List Descriptor} (hcycle : IsCycle ds first rest) :
      Diagnosis ds (.cyclic ((first :: rest ++ [first]).map (·.key.text)))

section

variable {ds : List Descriptor}

/-! ## Needs -/

/-- What the check of a need says, if it says anything. -/
def Request.fault? (ds : List Descriptor) (r : Request) : Option DependencyError :=
  match checkNeed ds r.place r.requester r.need with
  | .ok _ => none
  | .error e => some e

/-- A need without one provider has none or several. -/
theorem fault_of_providerOf (hd : (ds.map (·.key)).Nodup) {r : Request} (hallowed : r.IsAllowed)
    {e : DependencyError} (h : providerOf ds r.requester r.need = .error e) : Fault ds r e := by
  obtain ⟨place, d, kind, name⟩ := r
  cases name with
  | some name =>
    rw [providerOf] at h
    dsimp only at h
    split at h
    · cases h
    · next hnone =>
      obtain rfl := Except.error.inj h
      apply Fault.unresolved hallowed
      intro p hp
      have hsome := (findIdx?_eq_some_iff_provides hd).mpr hp
      rw [hnone] at hsome
      cases hsome
  | none =>
    rw [providerOf] at h
    dsimp only at h
    split at h
    · next hnil =>
      obtain rfl := Except.error.inj h
      apply Fault.unresolved hallowed
      intro p hp
      have hin := (mem_placesOfKind kind).mpr hp
      rw [hnil] at hin
      cases hin
    · cases h
    · next hnil hone =>
      obtain rfl := Except.error.inj h
      -- neither no place nor one place, so there are two in front
      rcases hplaces : placesOfKind ds kind with _ | ⟨p, _ | ⟨q, rest⟩⟩
      · exact absurd hplaces hnil
      · exact absurd hplaces (hone p)
      · have hnodup : (placesOfKind ds kind).Nodup := placesOfKind_nodup kind
        have hin : ∀ x ∈ p :: q :: rest, Provides ds ⟨kind, none⟩ x := by
          intro x hx
          rw [← hplaces] at hx
          exact (mem_placesOfKind kind).mp hx
        rw [hplaces] at hnodup
        have hapart : p ≠ q := by
          rintro rfl
          simp at hnodup
        exact Fault.ambiguous (r := ⟨place, d, ⟨kind, none⟩⟩) hallowed hapart (hin p (by simp))
          (hin q (by simp))

/-- What the check of a need says is wrong with it. -/
theorem fault_of_checkNeed (hd : (ds.map (·.key)).Nodup) {r : Request} {e : DependencyError}
    (h : r.fault? ds = some e) : Fault ds r e := by
  rw [Request.fault?] at h
  split at h
  · cases h
  · next hcheck =>
    obtain rfl := Option.some.inj h
    rw [checkNeed] at hcheck
    split at hcheck
    · next hweb =>
      obtain rfl := Except.error.inj hcheck
      apply Fault.wrongDirection
      intro hallowed
      simp only [Bool.and_eq_true, Bool.not_eq_true'] at hweb
      rw [hallowed hweb.1] at hweb
      cases hweb.2
    · next hweb =>
      have hallowed : r.IsAllowed := by
        intro hneed
        simpa [hneed] using hweb
      split at hcheck
      · next hprovider =>
        obtain rfl := Except.error.inj hcheck
        exact fault_of_providerOf hd hallowed hprovider
      · next provider hprovider =>
        split at hcheck
        · next hself =>
          obtain rfl := Except.error.inj hcheck
          obtain ⟨hp, hunique⟩ := (providerOf_eq_ok_iff hd).mp hprovider
          subst hself
          exact Fault.itself hallowed fun place => ⟨hunique place, fun he => he ▸ hp⟩
        · cases hcheck

/-- Nothing is wrong with a need that passes its check. -/
theorem not_fault_of_checkNeed (hd : (ds.map (·.key)).Nodup) {r : Request}
    (h : r.fault? ds = none) (e : DependencyError) : ¬ Fault ds r e := by
  rw [Request.fault?] at h
  split at h
  · next provider hcheck =>
    obtain ⟨hallowed, ⟨hp, hunique⟩, hother⟩ := (checkNeed_eq_ok_iff hd).mp hcheck
    intro hfault
    cases hfault with
    | wrongDirection hdirection => exact hdirection hallowed
    | unresolved _ hnobody => exact hnobody provider hp
    | ambiguous _ hapart hplace hother =>
      exact hapart ((hunique _ hplace).trans (hunique _ hother).symm)
    | itself _ hself => exact hother ((hself provider).mp hp)
  · cases h

/-! ## The first fault -/

theorem collectNeeds_eq_error_iff {place : Nat} {d : Descriptor} {found : List Nat}
    {needs : List Need} {e : DependencyError} :
    collectNeeds ds place d found needs = .error e ↔
      (needs.map fun need => (⟨place, d, need⟩ : Request)).findSome? (·.fault? ds) = some e := by
  induction needs generalizing found with
  | nil => simp [collectNeeds]
  | cons need rest ih =>
    rw [collectNeeds, List.map_cons, List.findSome?_cons, Request.fault?]
    dsimp only
    cases checkNeed ds place d need with
    | error reason => simp
    | ok provider => exact ih

/-- The search for providers fails with the first fault of a need. -/
theorem providersFrom_eq_error_iff {place : Nat} {rest : List Descriptor} {e : DependencyError} :
    providersFrom ds place rest = .error e ↔
      (requestsFrom place rest).findSome? (·.fault? ds) = some e := by
  induction rest generalizing place with
  | nil => simp [providersFrom, requestsFrom]
  | cons d rest ih =>
    have hown : ∀ e, providersOf ds place d = .error e ↔
        (d.needs.map fun need => (⟨place, d, need⟩ : Request)).findSome? (·.fault? ds) = some e :=
      fun e => collectNeeds_eq_error_iff
    rw [providersFrom, requestsFrom, List.findSome?_append]
    cases hp : providersOf ds place d with
    | error reason => simp [(hown reason).mp hp]
    | ok providers =>
      have hnone : (d.needs.map fun need => (⟨place, d, need⟩ : Request)).findSome?
          (·.fault? ds) = none := by
        rw [Option.eq_none_iff_forall_ne_some]
        intro reason hreason
        rw [(hown reason).mpr hreason] at hp
        cases hp
      rw [hnone, Option.none_or, ← ih]
      cases providersFrom ds (place + 1) rest <;> simp

/-- The key that is found is the first that has occurred before. -/
theorem exists_of_firstRepeated? {seen keys : List Key} {key : Key}
    (h : firstRepeated? seen keys = some key) :
    ∃ before after, keys = before ++ key :: after ∧ before.Nodup ∧ (∀ k ∈ before, k ∉ seen) ∧
      (key ∈ before ∨ key ∈ seen) := by
  induction keys generalizing seen with
  | nil => cases h
  | cons k rest ih =>
    rw [firstRepeated?] at h
    split at h
    · next hseen =>
      obtain rfl := Option.some.inj h
      exact ⟨[], rest, rfl, List.nodup_nil, by simp, .inr (by simpa using hseen)⟩
    · next hseen =>
      obtain ⟨before, after, rfl, hnodup, hfresh, hin⟩ := ih h
      refine ⟨k :: before, after, rfl, List.nodup_cons.mpr ⟨fun hk => ?_, hnodup⟩, ?_, ?_⟩
      · exact hfresh k hk (List.mem_cons_self ..)
      · intro q hq
        rcases List.mem_cons.mp hq with rfl | hq
        · simpa using hseen
        · exact fun hin => hfresh q hq (List.mem_cons_of_mem _ hin)
      · rcases hin with hin | hin
        · exact .inl (List.mem_cons_of_mem _ hin)
        · rcases List.mem_cons.mp hin with rfl | hin
          · exact .inl (List.mem_cons_self ..)
          · exact .inr hin

/-! ## Circles -/

/-- Different keys have different texts: a key is read off its text at the first colon, as no name
    of a kind has one. -/
theorem key_eq_of_text {a b : Key} (h : a.text = b.text) : a = b := by
  obtain ⟨kind, name⟩ := a
  obtain ⟨other, title⟩ := b
  have hchars : kind.name.toList ++ ':' :: name.toList = other.name.toList ++ ':' :: title.toList := by
    have htext := congrArg String.toList h
    simpa [Key.text] using htext
  have hfront : ∀ (k : Kind) (rest : List Char),
      (k.name.toList ++ ':' :: rest).takeWhile (· != ':') = k.name.toList := by
    intro k rest
    cases k <;> rfl
  have hnames : kind.name.toList = other.name.toList := by
    have htake := congrArg (List.takeWhile (· != ':')) hchars
    rwa [hfront, hfront] at htake
  have hkind : kind = other := by
    have hfound := Kind.ofName?_name kind
    rw [String.toList_inj.mp hnames, Kind.ofName?_name] at hfound
    exact (Option.some.inj hfound).symm
  rw [hnames] at hchars
  have hrest := List.append_cancel_left hchars
  rw [hkind, String.toList_inj.mp (List.cons.inj hrest).2]

/-- The components at places. -/
def componentsAt (ds : List Descriptor) (places : List Nat) : List Descriptor :=
  places.filterMap (ds[·]?)

theorem keyTexts_eq (places : List Nat) :
    keyTexts ds places = (componentsAt ds places).map (·.key.text) := by
  rw [keyTexts, componentsAt, List.map_filterMap]

/-- Along places that depend on one another the components need one another. -/
theorem isChain_componentsAt {places : List Nat} (h : places.IsChain (DependsOn ds)) :
    (componentsAt ds places).IsChain Needs := by
  induction places with
  | nil => exact List.isChain_nil
  | cons place rest ih =>
    cases rest with
    | nil =>
      simp only [componentsAt, List.filterMap_cons, List.filterMap_nil]
      cases ds[place]? <;> simp
    | cons provider rest =>
      obtain ⟨⟨d, hd, need, hneed, c, hc, hadmits⟩, hrest⟩ := List.isChain_cons_cons.mp h
      have hlater := ih hrest
      simp only [componentsAt, List.filterMap_cons, hd, hc] at hlater ⊢
      exact List.isChain_cons_cons.mpr ⟨⟨need, hneed, hadmits⟩, hlater⟩

/-- Where keys occur once, the components at different places have different keys. -/
theorem nodup_componentsAt (hd : (ds.map (·.key)).Nodup) {places : List Nat}
    (h : places.Nodup) : ((componentsAt ds places).map (·.key.text)).Nodup := by
  rw [componentsAt, List.map_filterMap]
  refine h.filterMap fun place other text hplace hother => ?_
  simp only [Option.mem_def, Option.map_eq_some_iff] at hplace hother
  obtain ⟨d, hplace, rfl⟩ := hplace
  obtain ⟨c, hother, htext⟩ := hother
  have hkey := key_eq_of_text htext
  have hlt := (List.getElem?_eq_some_iff.mp hplace).1
  refine (List.getElem?_inj (by simpa using hlt) hd).mp ?_
  rw [List.getElem?_map, List.getElem?_map, hplace, hother, Option.map_some, Option.map_some, hkey]

/-- A cycle in the graph of a list is a circle of its components. -/
theorem IsLoop.isCycle {graph : List (List Nat)} {left : Nat → Bool} {first : Nat}
    {rest : List Nat} (h : IsLoop graph left first rest) (hd : (ds.map (·.key)).Nodup)
    (hg : IsGraph ds graph) :
    ∃ d others, componentsAt ds (first :: rest ++ [first]) = d :: others ++ [d] ∧
      IsCycle ds d others := by
  have hlinked : (first :: rest ++ [first]).IsChain (DependsOn ds) :=
    h.linked.imp fun place provider hp => (hg.mem_iff place provider).mp hp
  obtain ⟨next, more, rfl⟩ : ∃ next more, rest = next :: more := by
    refine List.exists_cons_of_ne_nil ?_
    rintro rfl
    exact hg.irrefl first (List.isChain_cons_cons.mp hlinked).1
  obtain ⟨d, hfirst, need, hneed, c, hnext, hadmits⟩ := (List.isChain_cons_cons.mp hlinked).1
  have hcircle : componentsAt ds (first :: next :: more ++ [first]) =
      d :: componentsAt ds (next :: more) ++ [d] := by
    simp only [componentsAt, List.filterMap_append, List.filterMap_cons, List.filterMap_nil, hfirst]
  have hfront : componentsAt ds (first :: next :: more) = d :: componentsAt ds (next :: more) := by
    simp [componentsAt, hfirst]
  refine ⟨d, componentsAt ds (next :: more), hcircle, ?_, ?_, ?_, ?_⟩
  · intro e he
    rw [← hfront, componentsAt, List.mem_filterMap] at he
    obtain ⟨place, -, hplace⟩ := he
    exact List.mem_of_getElem? hplace
  · rw [← hfront]
    exact nodup_componentsAt hd h.nodup
  · simp [componentsAt, hnext]
  · rw [← hcircle]
    exact isChain_componentsAt hlinked

/-! ## Lists without a plan -/

/-- A list whose graph is found has different keys, and nothing is wrong with its needs. -/
theorem not_fault_of_allProviders {graph : List (List Nat)} (h : allProviders ds = .ok graph) :
    ∀ r ∈ requests ds, ∀ e, ¬ Fault ds r e := by
  have hd := (satisfiable_of_allProviders h).distinct
  rw [allProviders] at h
  split at h
  · cases h
  · have hnone : (requests ds).findSome? (·.fault? ds) = none := by
      rw [Option.eq_none_iff_forall_ne_some]
      intro e he
      rw [requests, ← providersFrom_eq_error_iff, h] at he
      cases he
    intro r hr
    exact not_fault_of_checkNeed hd (List.findSome?_eq_none_iff.mp hnone r hr)

/-- The search for providers fails with what is wrong with the list. -/
theorem diagnosis_of_allProviders {e : DependencyError} (h : allProviders ds = .error e) :
    Diagnosis ds e := by
  rw [allProviders] at h
  split at h
  · next key hkey =>
    obtain rfl := Except.error.inj h
    obtain ⟨front, back, hsplit, hnodup, -, hseen⟩ := exists_of_firstRepeated? hkey
    obtain ⟨before, rest, rfl, rfl, hrest⟩ := List.map_eq_append_iff.mp hsplit
    obtain ⟨d, after, rfl, rfl, rfl⟩ := List.map_eq_cons_iff.mp hrest
    exact .repeated rfl hnodup (by simpa using hseen)
  · next hkey =>
    have hd := ((firstRepeated?_eq_none_iff _ _).mp hkey).1
    obtain ⟨before, r, after, hsplit, hr, hbefore⟩ :=
      List.findSome?_eq_some_iff.mp (providersFrom_eq_error_iff.mp h)
    exact .faulty hd hsplit (fun q hq => not_fault_of_checkNeed hd (hbefore q hq))
      (fault_of_checkNeed hd hr)

/-- A list whose graph is found and that cannot be put in order goes round in a circle. -/
theorem diagnosis_of_finish {graph : List (List Nat)} (h : allProviders ds = .ok graph)
    (hlt : (Sorting.finish graph).order.length < ds.length) :
    Diagnosis ds (.cyclic (keyTexts ds ((findCycle graph (Sorting.finish graph)).getD []))) := by
  have hd := (satisfiable_of_allProviders h).distinct
  have hg := isGraph_of_allProviders h
  obtain ⟨first, rest, hfind, hloop⟩ := findCycle_finish hg.isSimple (hg.length.symm ▸ hlt)
  obtain ⟨d, others, hcircle, hcycle⟩ := hloop.isCycle hd hg
  rw [hfind, Option.getD_some, keyTexts_eq, hcircle]
  exact .circular hd (not_fault_of_allProviders h) hcycle

/-- Components that can be built in some order do not go round in a circle. -/
theorem IsBuildOrder.not_isCycle {order : List Nat} (h : IsBuildOrder ds order) {d : Descriptor}
    {others : List Descriptor} : ¬ IsCycle ds d others := by
  intro hcycle
  -- along the circle one goes towards the front of the order
  have hfront : ∀ a ∈ ds, ∀ b ∈ ds, Needs a b →
      order.idxOf (ds.idxOf b) < order.idxOf (ds.idxOf a) := fun a ha b hb hneeds =>
    h.provided _ _ (.of_needs (List.getElem?_idxOf ha) (List.getElem?_idxOf hb) hneeds)
  have hin : ∀ a ∈ d :: others ++ [d], a ∈ ds := by
    intro a ha
    apply hcycle.subset
    rcases List.mem_append.mp ha with ha | ha
    · exact ha
    · exact List.mem_singleton.mp ha ▸ List.mem_cons_self ..
  have hdown : ((d :: others ++ [d]).map fun a => order.idxOf (ds.idxOf a)).IsChain (· > ·) := by
    rw [List.isChain_map]
    exact hcycle.linked.imp_of_mem_imp fun a b ha hb hneeds => hfront a (hin a ha) b (hin b hb) hneeds
  have hself := (List.pairwise_cons.mp (List.isChain_iff_pairwise.mp hdown)).1
    (order.idxOf (ds.idxOf d)) (by simp)
  exact Nat.lt_irrefl _ hself

/-- Nothing is wrong with a list that has a plan. -/
theorem not_diagnosis_of_resolve {plan : Plan} (h : resolve ds = .ok plan) (e : DependencyError) :
    ¬ Diagnosis ds e := by
  obtain ⟨graph, hgraph, hle, -⟩ := resolve_eq_ok_iff.mp h
  have hs := satisfiable_of_allProviders hgraph
  intro hdiagnosis
  cases hdiagnosis with
  | repeated hsplit _ hseen =>
    have hd := hs.distinct
    rw [hsplit, List.map_append, List.map_cons, List.nodup_append] at hd
    exact hd.2.2 _ hseen _ (List.mem_cons_self ..) rfl
  | faulty _ hsplit _ hfault =>
    exact not_fault_of_allProviders hgraph _ (hsplit ▸ by simp) _ hfault
  | circular _ _ hcycle =>
    exact (isBuildOrder_finish (isGraph_of_allProviders hgraph) hle).not_isCycle hcycle

end

/-- A list of components without a plan is refused with what is wrong with it, and a list has no
    plan just if something is wrong with it. -/
theorem resolve_diagnoses (ds : List Descriptor) :
    (∀ e, resolve ds = .error e → Diagnosis ds e) ∧
      ((∃ e, Diagnosis ds e) ↔ ¬ ∃ plan, resolve ds = .ok plan) := by
  have herror : ∀ e, resolve ds = .error e → Diagnosis ds e := by
    intro e h
    rw [resolve] at h
    split at h
    · next reason hreason =>
      obtain rfl := Except.error.inj h
      exact diagnosis_of_allProviders hreason
    · next graph hgraph =>
      dsimp only at h
      split at h
      · next hlt =>
        obtain rfl := Except.error.inj h
        exact diagnosis_of_finish hgraph hlt
      · cases h
  refine ⟨herror, ?_, ?_⟩
  · rintro ⟨e, hdiagnosis⟩ ⟨plan, hplan⟩
    exact not_diagnosis_of_resolve hplan e hdiagnosis
  · intro hnoplan
    cases hresolve : resolve ds with
    | ok plan => exact absurd ⟨plan, hresolve⟩ hnoplan
    | error e => exact ⟨e, herror e hresolve⟩

/-- A handler that needs a cart, a cart and a price list that need each other, and a clock. The
    handler is not part of the circle, though it is left as well and the walk starts from it. -/
def cartAndPrices : List Descriptor :=
  [⟨.httpHandler, "Checkout", none, [.any .service], .feature "web"⟩,
   ⟨.service, "Cart", none, [.named .repository "prices"], .scanned "app"⟩,
   ⟨.repository, "PriceList", some "prices", [.any .validator, .any .service], .scanned "app"⟩,
   ⟨.validator, "Clock", none, [], .scanned "app"⟩]

theorem resolve_diagnoses_cartAndPrices :
    resolve cartAndPrices =
        .error (.cyclic ["Service:Cart", "Repository:prices", "Service:Cart"]) ∧
      Diagnosis cartAndPrices
        (.cyclic ["Service:Cart", "Repository:prices", "Service:Cart"]) := by
  have herror : resolve cartAndPrices =
      .error (.cyclic ["Service:Cart", "Repository:prices", "Service:Cart"]) := by decide
  exact ⟨herror, (resolve_diagnoses cartAndPrices).1 _ herror⟩

end BootEngine.Plan
