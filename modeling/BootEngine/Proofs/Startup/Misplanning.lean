import BootEngine.Construction.Recipe
import BootEngine.Proofs.Startup.Layers
import BootEngine.Proofs.Startup.Protocol

/-!
# Plans that are not taken

A resolver may answer with any plan. A run takes only a plan that has every place of what has been
collected exactly once, so that everything collected is built. With any other plan it stops where it
orders the components: no factory has been called by then, and nothing has been left out in silence.

Contents:
* `mem_admissions`, `exists_of_allOf`: what the moves in front of the order can fail at.
* `collected_at_order`: what a run orders.
* `Inputs.ComesToOrder`, `StopsAt.eq_order`: runs in which nothing fails before the order.
* `StopsAt.eq_misplanned`: how the order fails.
* `plans_are_permutations`: the plans that are taken, and what becomes of the others.
-/

namespace BootEngine.Startup

open Component (Key)
open Run (each)

/-! ## In front of the order -/

/-- The moves that look at features come upon a feature behind those that they have seen, or ask one
    that is not left out. -/
theorem mem_admissions {settings : Settings} {seen : List String} {features : List Feature}
    {m : Move} (h : m ∈ admissions settings seen features) :
    (∃ front f back, features = front ++ f :: back ∧
        m = .vet ((front.map (·.id)).reverse ++ seen) f) ∨
      ∃ f ∈ features.filter fun f => !settings.isDisabled f.id, m = .provide f := by
  induction features generalizing seen with
  | nil => cases h
  | cons f rest ih =>
    rw [admissions, List.mem_cons, List.mem_append] at h
    rcases h with rfl | h | h
    · exact .inl ⟨[], f, rest, rfl, rfl⟩
    · split at h
      · cases h
      · next henabled =>
        refine .inr ⟨f, ?_, List.mem_singleton.mp h⟩
        simp [henabled]
    · rcases ih h with ⟨front, g, back, rfl, rfl⟩ | ⟨g, hg, rfl⟩
      · exact .inl ⟨f :: front, g, back, rfl, by simp⟩
      · exact .inr ⟨g, List.Sublist.subset ((List.sublist_cons_self f rest).filter _) hg, rfl⟩

/-- If all give something, each does. -/
theorem exists_of_allOf {α β ε : Type} {give : α → Except ε (List β)} {l : List α} {out : List β}
    (h : allOf give l = .ok out) {a : α} (ha : a ∈ l) : ∃ part, give a = .ok part := by
  induction l generalizing out with
  | nil => cases ha
  | cons b rest ih =>
    rw [allOf] at h
    cases hb : give b with
    | error e =>
      rw [hb] at h
      cases h
    | ok first =>
      rw [hb] at h
      rcases List.mem_cons.mp ha with rfl | ha
      · exact ⟨first, hb⟩
      · cases hrest : allOf give rest with
        | error e =>
          rw [hrest] at h
          cases h
        | ok others => exact ih hrest ha

/-- Lists that go on with the same item, which has not occurred before, are the same up to there. -/
theorem eq_of_append_cons {α : Type} {l k rest other : List α} {a : α} (hl : a ∉ l) (hk : a ∉ k)
    (h : l ++ a :: rest = k ++ a :: other) : l = k := by
  rcases List.append_eq_append_iff.mp h with ⟨tail, rfl, hback⟩ | ⟨tail, rfl, hback⟩
  all_goals
    cases tail with
    | nil => simp
    | cons b tail =>
      obtain ⟨rfl, -⟩ := List.cons.inj hback
      simp at hl hk

/-- In front of the order there are the scans and nothing else. -/
theorem eq_scans_of_order {a : Agenda} {made : List Move}
    (h : made ++ [.order] <+: a.moves .componentRegistration) : made = a.scanners.map .scan := by
  have hscans : Move.order ∉ a.scanners.map Move.scan := by simp
  have hmade : Move.order ∉ made := fun hin => by
    obtain ⟨s, hs⟩ := scans_before_order h (.inr rfl) _ hin
    cases hs
  obtain ⟨rest, hrest⟩ := h
  rw [List.append_assoc, List.singleton_append, Agenda.moves] at hrest
  exact eq_of_append_cons hmade hscans hrest

section Order

variable {inputs : Inputs} {done : List Phase} {phase : Phase} {made : List Move} {m : Move}
  {r t : Run} {e : StartupError} {collected : List Registration}

/-- What a run orders is all that has been collected. -/
theorem collected_at_order (h : Midway inputs done .componentRegistration made r)
    (hnext : made ++ [.order] <+: inputs.agenda.moves .componentRegistration) :
    inputs.collected = .ok r.pending := by
  obtain ⟨hfront, -, s, hs, heach⟩ := h
  have hbefore := (Phase.mem_front_iff (q := .featureRegistration) hfront).mpr (by decide)
  have hread := (Phase.mem_front_iff (q := .configuration) hfront).mpr (by decide)
  have hprovided := hs.pending_eq hbefore (not_mem_front hfront)
  have hroots := (hs.settings_inputs hread).2
  rw [eq_scans_of_order hnext, each_map] at heach
  obtain ⟨u, f, -, hscan⟩ | ⟨found, hfound, hscan⟩ :=
    eachScan_cases inputs.scanners (s.enter .componentRegistration)
  · cases hscan.symm.trans heach
  · cases hscan.symm.trans heach
    have hbelow : foundBy inputs.scanners inputs.allRoots = .ok found := hroots ▸ hfound
    exact Inputs.collected_eq_ok.mpr ⟨s.pending, found, hprovided, hbelow, rfl⟩

/-! ## Runs that come to the order -/

/-- Nothing fails before the components are ordered: the settings can be read, there is a data
    source, no two features have the same identifier, and the components can be collected. -/
structure Inputs.ComesToOrder (inputs : Inputs) : Prop where
  settings : ∃ settings, Settings.load inputs.config = .ok settings
  source : inputs.source.isSome
  features : (inputs.features.map (·.id)).Nodup
  collected : ∃ collected, inputs.collected = .ok collected

/-- If there is no order, nothing is placed. -/
theorem ordered_eq_nil (hcollected : inputs.collected = .ok collected)
    (hnone : inputs.resolver.arrange? collected = none) : inputs.ordered = [] := by
  rw [Inputs.ordered, hcollected]
  change (inputs.resolver.arrange? collected).getD [] = []
  rw [hnone, Option.getD_none]

/-- Without an order no run gets past the phase that builds the components. -/
theorem Stage.not_mem_of_no_order (h : Stage inputs done r)
    (hcollected : inputs.collected = .ok collected)
    (hnone : inputs.resolver.arrange? collected = none) : .componentRegistration ∉ done := by
  intro hin
  obtain ⟨same, hsame, harranged⟩ := h.arranged hin
  obtain rfl := Except.ok.inj (hcollected.symm.trans hsame)
  rw [hnone] at harranged
  cases harranged

/-- A feature whose identifier no other one has is not refused. -/
theorem vet_ne_failed {front back : List Feature} {f : Feature}
    (hnodup : ((front ++ f :: back).map (·.id)).Nodup) (s : Run) :
    (Move.vet ((front.map (·.id)).reverse ++ []) f).act s = (s, none) := by
  have hnew : f.id ∉ (front.map (·.id)).reverse ++ [] := by
    rw [List.append_nil, List.mem_reverse]
    rw [List.map_append, List.map_cons] at hnodup
    exact fun hin => (List.nodup_append.mp hnodup).2.2 _ hin _ (List.mem_cons_self ..) rfl
  rw [Move.act, if_neg fun hin => hnew (List.contains_iff_mem.mp hin)]

/-- If nothing fails before the components are ordered, and they cannot be, then it is the order
    that fails. -/
theorem StopsAt.eq_order (h : StopsAt inputs done phase made m t e) (hcomes : inputs.ComesToOrder)
    (hnone : ∀ collected, inputs.collected = .ok collected →
      inputs.resolver.arrange? collected = none) : m = .order := by
  obtain ⟨collected, hcollected⟩ := hcomes.collected
  obtain ⟨provided, found, hprovided, hfound, -⟩ := Inputs.collected_eq_ok.mp hcollected
  have hempty := ordered_eq_nil hcollected (hnone collected hcollected)
  have hlate : ∀ q : Phase, q.number < phase.number → q ≠ .componentRegistration := by
    obtain ⟨s, hs, -⟩ := h.fails
    obtain ⟨r, hr, -⟩ := hs.frame
    rintro q hq rfl
    exact hr.not_mem_of_no_order hcollected (hnone collected hcollected)
      ((Phase.mem_front_iff h.isFront).mpr hq)
  have hin : m ∈ inputs.agenda.moves phase := h.isNext.subset (by simp)
  obtain ⟨s, hs, hfails⟩ := h.fails
  obtain ⟨u, hu, hframe⟩ := hs.frame
  have hinputs : s.inputs = inputs := hframe.inputs.trans hu.inputs_eq
  cases phase with
  | configuration =>
    obtain rfl := List.mem_singleton.mp hin
    obtain ⟨settings, hsettings⟩ := hcomes.settings
    obtain ⟨f, hload, -⟩ | ⟨other, -, hact⟩ := configure_cases s
    · rw [hinputs, hsettings] at hload
      cases hload
    · cases hact.symm.trans hfails
  | coreInfrastructure =>
    obtain rfl := List.mem_singleton.mp hin
    obtain ⟨f, hsource, -⟩ | ⟨source, -, hact⟩ := registerCore_cases s
    · have hsome := hcomes.source
      rw [← hinputs, hsource] at hsome
      cases hsome
    · cases hact.symm.trans hfails
  | featureRegistration =>
    obtain ⟨front, f, back, hsplit, rfl⟩ | ⟨f, hf, rfl⟩ := mem_admissions hin
    · have hdistinct := hcomes.features
      rw [show inputs.features = front ++ f :: back from hsplit] at hdistinct
      cases (vet_ne_failed hdistinct s).symm.trans hfails
    · obtain ⟨part, hpart⟩ := exists_of_allOf hprovided hf
      obtain ⟨rest, g, hnot, -⟩ | ⟨registrations, -, hact⟩ := askFeature_cases s f
      · cases hnot.symm.trans hpart
      · cases hact.symm.trans hfails
  | componentRegistration =>
    rw [Agenda.moves, show inputs.agenda.ordered = [] from hempty, List.mem_append] at hin
    rcases hin with hin | hin
    · obtain ⟨scanner, hscanner, rfl⟩ := List.mem_map.mp hin
      obtain ⟨part, hpart⟩ := exists_of_allOf hfound hscanner
      have hread := (Phase.mem_front_iff (q := .configuration) h.isFront).mpr (by decide)
      have hroots : s.roots = inputs.allRoots :=
        (hframe.settings (by decide)).2.trans (hu.settings_inputs hread).2
      obtain ⟨g, hnot, -⟩ | ⟨registrations, -, hact⟩ := scanWith_cases s scanner
      · rw [hroots] at hnot
        cases hnot.symm.trans hpart
      · cases hact.symm.trans hfails
    · exact List.mem_singleton.mp hin
  | _ => exact absurd rfl (hlate .componentRegistration (by decide))

/-- An order fails because of a plan that does not take everything once, if the resolver gives such
    a plan. -/
theorem StopsAt.eq_misplanned (h : StopsAt inputs done phase made .order t e) {plan : Plan}
    (hcollected : inputs.collected = .ok collected)
    (hplan : inputs.resolver.resolve (collected.map (·.descriptor)) = .ok plan)
    (hbad : ¬ plan.TakesEachOnce collected.length) :
    e = misplanned collected.length plan.order.length := by
  obtain rfl : Phase.componentRegistration = phase := Agenda.phase_of_next h.isNext
  obtain ⟨s, hs, hfails⟩ := h.fails
  obtain rfl := Except.ok.inj (hcollected.symm.trans (collected_at_order hs h.isNext))
  obtain ⟨u, hu, hframe⟩ := hs.frame
  have hplan' : s.inputs.resolver.resolve (s.pending.map (·.descriptor)) = .ok plan := by
    rw [hframe.inputs, hu.inputs_eq]
    exact hplan
  rw [Move.act, orderCollected] at hfails
  dsimp only [Run.note] at hfails
  rw [hplan'] at hfails
  dsimp only at hfails
  rw [arrange?_eq_none_iff.mpr hbad, List.length_map] at hfails
  exact (Option.some.inj (Prod.mk.inj hfails).2).symm

/-- Where there is nothing in order, no phase calls a factory. -/
theorem create_not_mem_of_no_order (hempty : inputs.ordered = []) (key : Key) :
    .create key ∉ inputs.agenda.calls phase ∧ .create key ∉ inputs.phaseCalls phase := by
  have hcalls : .create key ∉ inputs.agenda.calls phase := by
    cases phase <;> simp [Agenda.calls, Inputs.agenda, hempty]
  refine ⟨hcalls, ?_⟩
  simp [Inputs.phaseCalls, hcalls]

theorem StopsAt.not_create_of_no_order (h : StopsAt inputs done phase made m t e)
    (hempty : inputs.ordered = []) (key : Key) :
    .create key ∉ callsOf (t.broken phase e).trace := by
  rw [h.calls_eq, List.mem_append, List.mem_append]
  rintro ((hcall | hcall) | hcall)
  · obtain ⟨before, -, hcall⟩ := List.mem_flatMap.mp hcall
    exact (create_not_mem_of_no_order hempty key).2 hcall
  · obtain ⟨listener, -, hcall⟩ := List.mem_map.mp hcall
    cases hcall
  · exact (create_not_mem_of_no_order hempty key).1 (h.calls_prefix.subset hcall)

end Order

/-! ## The plans that are taken -/

/-- A plan arranges items if and only if it takes each of them once; each item then stands where
    the plan has its place, and none is lost or doubled. Whatever plan a resolver gives for what has
    been collected: if it takes everything once, a start-up that goes well has registered
    everything; if it does not, the start-up fails before it calls any factory, and if nothing fails
    before the components are ordered, it fails because of the plan. -/
theorem plans_are_permutations :
    (∀ {α : Type} (plan : Plan) (items : List α),
      ((∃ ordered, plan.arrange? items = some ordered) ↔ plan.TakesEachOnce items.length) ∧
        ∀ ordered, plan.arrange? items = some ordered → ordered.Perm items ∧
          ∀ k place : Nat, plan.order[k]? = some place → ordered[k]? = items[place]?) ∧
    ∀ {b : Builder} {inForce : Bool} {stopwatch : Stopwatch} {x : Executor},
      b.executor inForce stopwatch = .ok x →
        ∀ collected plan, (b.inputs stopwatch).collected = .ok collected →
          b.resolver.resolve (collected.map (·.descriptor)) = .ok plan →
            (plan.TakesEachOnce collected.length → ∀ app, x.execute.2.1 = .ok app →
              app.registry.keys.Perm (collected.map (·.descriptor.key))) ∧
            (¬ plan.TakesEachOnce collected.length →
              (∃ e, x.execute.2.1 = .error e) ∧ (∀ key, .create key ∉ callsOf x.execute.1) ∧
              ((b.inputs stopwatch).ComesToOrder →
                x.execute.2.1 = .error (misplanned collected.length plan.order.length))) := by
  constructor
  · intro α plan items
    refine ⟨exists_arrange?_iff, fun ordered h => ⟨perm_of_arrange? h, fun k place hk => ?_⟩⟩
    exact getElem?_of_arrange? h hk
  · intro b inForce stopwatch x hb collected plan hcollected hplan
    obtain rfl := Builder.executor_eq_ok hb
    have hnone : ¬ plan.TakesEachOnce collected.length →
        (b.inputs stopwatch).resolver.arrange? collected = none := by
      intro hbad
      rw [Resolver.arrange?, show (b.inputs stopwatch).resolver = b.resolver from rfl, hplan]
      exact arrange?_eq_none_iff.mpr hbad
    obtain ⟨r, c, hr, -, hrun⟩ | ⟨done, phase, made, m, t, e, hstop, hrun⟩ :=
      execute_cases (b.inputs stopwatch)
    · rw [hrun]
      refine ⟨fun _ app happ => ?_, fun hbad => ?_⟩
      · obtain rfl := Except.ok.inj happ
        obtain ⟨same, hsame, harranged⟩ := hr.arranged (Phase.mem_all _)
        obtain rfl := Except.ok.inj (hcollected.symm.trans hsame)
        exact hr.keys_eq ▸ (layers_perm harranged).map _
      · exact absurd (Phase.mem_all _) (hr.not_mem_of_no_order hcollected (hnone hbad))
    · rw [hrun]
      refine ⟨fun _ app happ => (nomatch happ), fun hbad => ⟨⟨e, rfl⟩, ?_, fun hcomes => ?_⟩⟩
      · exact hstop.not_create_of_no_order (ordered_eq_nil hcollected (hnone hbad))
      · have horder := hstop.eq_order hcomes fun other hother => by
          obtain rfl := Except.ok.inj (hcollected.symm.trans hother)
          exact hnone hbad
        subst horder
        exact congrArg Except.error (hstop.eq_misplanned hcollected hplan hbad)

/-- A shop with a service and a table, and a resolver whose plan has both of them and then the table
    once more. -/
def tableTwice : Builder :=
  let built (typeName : String) : Option Factory := some (Recipe.factory ⟨[], typeName, none⟩)
  { Builder.empty with
    roots := ["shop"]
    manifests := [⟨"shop.stock",
      [⟨.service, "shop::Stock", none, [.any .repository], built "Stock"⟩,
        ⟨.repository, "shop::Table", some "rows", [], built "Table"⟩]⟩]
    features := [.bare "audit"]
    resolver := .fixed [1, 0, 1]
    source := some (.pool (.ofSize "db" 1)) }

theorem plans_are_permutations_tableTwice :
    tableTwice.executor false .still = .ok (.ofInputs (tableTwice.inputs .still)) ∧
      ∃ collected, (tableTwice.inputs .still).collected = .ok collected ∧ collected.length = 2 ∧
        ¬ Plan.TakesEachOnce ⟨[1, 0, 1]⟩ collected.length ∧
        (tableTwice.inputs .still).ComesToOrder ∧
        (Executor.ofInputs (tableTwice.inputs .still)).execute.2.1 =
          .error (.phaseFailed "4.ComponentRegistration"
            "解析顺序与组件不一致: 共 2 个组件，顺序包含 3 项") ∧
        ∀ key, .create key ∉ callsOf (Executor.ofInputs (tableTwice.inputs .still)).execute.1 := by
  have hb : tableTwice.executor false .still = .ok (.ofInputs (tableTwice.inputs .still)) := rfl
  obtain ⟨collected, hcollected, hlength⟩ :
      ∃ collected, (tableTwice.inputs .still).collected = .ok collected ∧ collected.length = 2 :=
    ⟨_, rfl, rfl⟩
  have hbad : ¬ Plan.TakesEachOnce ⟨[1, 0, 1]⟩ collected.length := by
    rw [hlength]
    decide
  have hcomes : (tableTwice.inputs .still).ComesToOrder :=
    ⟨⟨_, rfl⟩, rfl, by decide, collected, hcollected⟩
  obtain ⟨-, hbuilt, hfails⟩ :=
    (plans_are_permutations.2 hb collected ⟨[1, 0, 1]⟩ hcollected rfl).2 hbad
  refine ⟨hb, collected, hcollected, hlength, hbad, hcomes, ?_, hbuilt⟩
  rw [hfails hcomes, hlength]
  rfl

end BootEngine.Startup
