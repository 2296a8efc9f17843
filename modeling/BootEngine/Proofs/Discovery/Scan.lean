import Mathlib.Data.List.DropRight
import Mathlib.Data.List.Flatten
import Mathlib.Data.List.Forall2
import BootEngine.Discovery.Manifest

/-!
# What a scan finds

A dotted name is a list of segments. It lies under a root if the segments of the root, whose dots at
the end do not count, stand in front of it; under a root of dots alone lies everything. A scan
registers the definitions of the manifests that lie under some of its roots, each once, in their
order. It passes initializers over, and fails for the first definition that has no factory or needs
itself.

Contents:
* `LiesUnder`, `isUnder_iff`: a name lies under a root, said of segments.
* `LiesUnder.trans`: what lies under a root lies under all roots above it.
* `Definition.IsUsable`, `Definition.refusal`, `Registration.IsOf`: definitions that can be
  registered, and what becomes of others.
* `eligible`, `scanManifests_eq_mapM`: what a scan looks at, and that it registers just that.
* `scan_finds`: what a scan answers, and how the answer depends on the roots.
-/

namespace BootEngine

open Component (Kind Need Origin Descriptor)

/-! ## Segments -/

/-- Lists of segments are joined by a separator between them. -/
theorem intercalate_append {sep : Char} {front back : List (List Char)} (hf : front ≠ [])
    (hb : back ≠ []) :
    [sep].intercalate (front ++ back) = [sep].intercalate front ++ sep :: [sep].intercalate back := by
  induction front with
  | nil => exact absurd rfl hf
  | cons first rest ih =>
    by_cases hr : rest = []
    · rw [hr, List.singleton_append, List.intercalate_cons_of_ne_nil hb, List.intercalate_singleton,
        List.append_assoc, List.singleton_append]
    · rw [List.cons_append, List.intercalate_cons_of_ne_nil (List.append_ne_nil_of_left_ne_nil hr _),
        List.intercalate_cons_of_ne_nil hr, ih hr]
      simp only [List.append_assoc, List.cons_append]

/-- The segments of one text stand in front of those of another just if the other is the first, or
    goes on behind it with a separator. -/
theorem splitOn_isPrefix_iff {sep : Char} {front whole : List Char} :
    front.splitOn sep <+: whole.splitOn sep ↔
      whole = front ∨ ∃ rest, whole = front ++ sep :: rest := by
  constructor
  · rintro ⟨others, hsplit⟩
    have hwhole := congrArg [sep].intercalate hsplit
    rw [List.intercalate_splitOn] at hwhole
    by_cases ho : others = []
    · rw [ho, List.append_nil, List.intercalate_splitOn] at hwhole
      exact .inl hwhole.symm
    · rw [intercalate_append (List.splitOn_ne_nil _ _) ho, List.intercalate_splitOn] at hwhole
      exact .inr ⟨_, hwhole.symm⟩
  · rintro (rfl | ⟨rest, rfl⟩)
    · exact List.prefix_refl _
    · rw [List.splitOn_append_cons_self]
      exact List.prefix_append _ _

/-! ## Roots -/

/-- A root without the dots at its end is empty, or its segments stand in front of those of the
    name. -/
def LiesUnder (path root : String) : Prop :=
  root.toList.rdropWhile (· == '.') = [] ∨
    (root.toList.rdropWhile (· == '.')).splitOn '.' <+: path.toList.splitOn '.'

instance (path root : String) : Decidable (LiesUnder path root) :=
  inferInstanceAs (Decidable (_ ∨ _))

theorem dropFront?_eq_some_iff {front cs rest : List Char} :
    dropFront? front cs = some rest ↔ cs = front ++ rest := by
  fun_induction dropFront? front cs with
  | case1 cs => simp
  | case2 a front => simp
  | case3 a front c cs he ih => simp [ih, (beq_iff_eq.mp he).symm]
  | case4 a front c cs he =>
    have hne : c ≠ a := fun h => he (beq_iff_eq.mpr h.symm)
    simp [hne]

/-- The test goes by segments. -/
theorem isUnder_iff (path root : String) : isUnder path root = true ↔ LiesUnder path root := by
  rw [LiesUnder, splitOn_isPrefix_iff]
  show (trimDots root.toList).isEmpty || _ ↔ trimDots root.toList = [] ∨ _
  rw [Bool.or_eq_true, List.isEmpty_iff]
  refine or_congr_right ?_
  cases hd : dropFront? (trimDots root.toList) path.toList with
  | none =>
    have hnone : ∀ rest, path.toList ≠ trimDots root.toList ++ rest := fun rest hp => by
      rw [dropFront?_eq_some_iff.mpr hp] at hd
      cases hd
    simp only [Bool.false_eq_true, false_iff, not_or, not_exists]
    exact ⟨fun hp => hnone [] (by rw [List.append_nil]; exact hp), fun rest => hnone _⟩
  | some rest =>
    rw [dropFront?_eq_some_iff] at hd
    show _ ↔ path.toList = trimDots root.toList ∨
      ∃ others, path.toList = trimDots root.toList ++ '.' :: others
    rw [hd]
    cases rest with
    | nil => simp only [List.append_nil, true_or]
    | cons c others =>
      constructor
      · intro hc
        exact .inr ⟨others, by rw [beq_iff_eq.mp hc]⟩
      · rintro (hsame | ⟨more, hmore⟩)
        · exact absurd (List.append_right_eq_self.mp hsame) (List.cons_ne_nil c others)
        · exact beq_iff_eq.mpr (List.cons.inj (List.append_cancel_left hmore)).1

/-- A root goes by whole segments, and its dots at the end do not count. -/
example : LiesUnder "app.orders" "app.." ∧ ¬ LiesUnder "application" "app" := by decide

/-- Of a text with a dot inside, what is left without the dots at its end is the part before that
    dot without its own, or it still goes on behind that dot. -/
theorem rdropWhile_append_cons {front rest : List Char} :
    ∃ others, (front ++ '.' :: rest).rdropWhile (· == '.') = front.rdropWhile (· == '.') ∨
      (front ++ '.' :: rest).rdropWhile (· == '.') = front ++ '.' :: others := by
  induction rest using List.reverseRecOn with
  | nil => exact ⟨[], .inl (List.rdropWhile_concat_pos _ _ _ rfl)⟩
  | append_singleton rest last ih =>
    rw [← List.cons_append, ← List.append_assoc, List.rdropWhile_concat]
    split
    · exact ih
    · exact ⟨rest ++ [last], .inr (by rw [List.append_assoc, List.cons_append])⟩

/-- What lies under a root lies under all roots above that root. -/
theorem LiesUnder.trans {path middle root : String} (hp : LiesUnder path middle)
    (hm : LiesUnder middle root) : LiesUnder path root := by
  rcases hm with hroot | hm
  · exact .inl hroot
  by_cases hroot : root.toList.rdropWhile (· == '.') = []
  · exact .inl hroot
  -- The dots at the end of the root in the middle are behind the segments of the upper one.
  have hmiddle : (root.toList.rdropWhile (· == '.')).splitOn '.' <+:
      (middle.toList.rdropWhile (· == '.')).splitOn '.' := by
    rw [splitOn_isPrefix_iff] at hm ⊢
    rcases hm with hm | ⟨rest, hm⟩
    · rw [hm, List.rdropWhile_idempotent]
      exact .inl rfl
    · rw [hm]
      obtain ⟨others, hsame | hmore⟩ := rdropWhile_append_cons
      · rw [hsame, List.rdropWhile_idempotent]
        exact .inl rfl
      · exact .inr ⟨others, hmore⟩
  rcases hp with hnone | hp
  · rw [hnone, splitOn_isPrefix_iff] at hmiddle
    rcases hmiddle with hm | ⟨rest, hm⟩
    · exact absurd hm.symm hroot
    · exact absurd hm.symm (by simp)
  · exact .inr (hmiddle.trans hp)

/-! ## Definitions -/

namespace Definition

/-- A definition can be registered: it has a factory, and none of its needs names it. -/
def IsUsable (d : Definition) : Prop :=
  d.factory.isSome = true ∧ Need.named d.kind (d.qualifier.getD d.shortName) ∉ d.needs

/-- Why a definition from a manifest cannot be registered; a missing factory is told first. -/
def refusal (path : String) (d : Definition) : DiscoveryError :=
  if d.factory.isNone then
    ⟨d.shortName, "namespace '" ++ path ++ "'" ++ " 没有提供工厂，无法实例化"⟩
  else
    ⟨d.shortName, d.kind.name ++ ":" ++ d.qualifier.getD d.shortName ++ " 不能依赖自身"⟩

end Definition

/-- A registration is that of a definition from a manifest. -/
structure Registration.IsOf (r : Registration) (path : String) (d : Definition) : Prop where
  descriptor : r.descriptor = ⟨d.kind, d.shortName, d.qualifier, d.needs, .scanned path⟩
  factory : d.factory = some r.factory

namespace Definition

variable {path : String} {d : Definition}

/-- A definition is registered as what it is, or refused. -/
theorem register_cases (path : String) (d : Definition) :
    (d.IsUsable ∧ ∃ r, d.register (.scanned path) = .ok r ∧ r.IsOf path d) ∨
      ¬ d.IsUsable ∧ d.register (.scanned path) = .error (d.refusal path) := by
  unfold register IsUsable refusal
  cases hf : d.factory with
  | none => exact .inr ⟨fun h => (nomatch h.1), rfl⟩
  | some factory =>
    dsimp only
    have hself := (d.descriptor (.scanned path)).needsItself_iff
    split
    · next hneeds =>
      exact .inr ⟨fun h => h.2 (hself.mp hneeds), rfl⟩
    · next hneeds =>
      exact .inl ⟨⟨rfl, fun h => hneeds (hself.mpr h)⟩, _, rfl, rfl, hf⟩

theorem register_eq_ok {r : Registration} (h : d.register (.scanned path) = .ok r) :
    d.IsUsable ∧ r.IsOf path d := by
  rcases d.register_cases path with ⟨husable, s, hs, hof⟩ | ⟨-, he⟩
  · rw [h] at hs
    cases hs
    exact ⟨husable, hof⟩
  · rw [h] at he
    cases he

theorem register_eq_error_iff {e : DiscoveryError} :
    d.register (.scanned path) = .error e ↔ ¬ d.IsUsable ∧ e = d.refusal path := by
  rcases d.register_cases path with ⟨husable, s, hs, -⟩ | ⟨hunusable, he⟩
  · rw [hs]
    exact ⟨fun h => (nomatch h), fun h => absurd husable h.1⟩
  · rw [he]
    exact ⟨fun h => ⟨hunusable, (Except.error.inj h).symm⟩, fun h => by rw [h.2]⟩

end Definition

/-! ## Scans -/

/-- The definitions that a scan looks at, each with the name of its manifest: of the manifests under
    some root, all but the initializers. -/
def eligible (roots : List String) (ms : List Manifest) : List (String × Definition) :=
  (ms.filter fun m => ∃ root ∈ roots, LiesUnder m.path root).flatMap fun m =>
    (m.definitions.filter (·.kind ≠ .initializer)).map (m.path, ·)

/-- Steps for the items of a list, one after another, up to the first that fails. -/
theorem mapM_cons_eq {α β ε : Type} (f : α → Except ε β) (x : α) (xs : List α) :
    (x :: xs).mapM f =
      match f x with
      | .error e => .error e
      | .ok y => (xs.mapM f).map (y :: ·) := by
  rw [List.mapM_cons]
  cases f x with
  | error e => rfl
  | ok y => cases xs.mapM f <;> rfl

/-- They succeed together if each of them does. -/
theorem mapM_eq_ok_iff {α β ε : Type} {f : α → Except ε β} {xs : List α} {ys : List β} :
    xs.mapM f = .ok ys ↔ List.Forall₂ (fun x y => f x = .ok y) xs ys := by
  induction xs generalizing ys with
  | nil => simp [pure, Except.pure, eq_comm]
  | cons x xs ih =>
    rw [mapM_cons_eq, List.forall₂_cons_left_iff]
    simp only [← ih]
    cases f x with
    | error e => simp
    | ok y => cases xs.mapM f <;> simp [Except.map, eq_comm]

/-- Otherwise they fail as the first one that does. -/
theorem mapM_eq_error_iff {α β ε : Type} {f : α → Except ε β} {xs : List α} {e : ε} :
    xs.mapM f = .error e ↔ ∃ front x back, xs = front ++ x :: back ∧
      (∀ y ∈ front, ∃ b, f y = .ok b) ∧ f x = .error e := by
  induction xs with
  | nil => simp [pure, Except.pure]
  | cons x xs ih =>
    rw [mapM_cons_eq]
    constructor
    · intro h
      cases hx : f x with
      | error e' =>
        rw [hx] at h
        exact ⟨[], x, xs, rfl, by simp, hx.trans (congrArg _ (Except.error.inj h))⟩
      | ok b =>
        have hrest : xs.mapM f = .error e := by
          rw [hx] at h
          cases hr : xs.mapM f <;> simp_all [Except.map]
        obtain ⟨front, z, back, rfl, hfront, hz⟩ := ih.mp hrest
        exact ⟨x :: front, z, back, rfl, List.forall_mem_cons.mpr ⟨⟨b, hx⟩, hfront⟩, hz⟩
    · rintro ⟨front, z, back, hsplit, hfront, hz⟩
      cases front with
      | nil =>
        obtain ⟨rfl, -⟩ := List.cons.inj hsplit
        rw [hz]
      | cons w front =>
        obtain ⟨rfl, rfl⟩ := List.cons.inj hsplit
        obtain ⟨⟨b, hb⟩, hfront⟩ := List.forall_mem_cons.mp hfront
        rw [hb, ih.mpr ⟨front, z, back, rfl, hfront, hz⟩]
        rfl

/-- A scan of definitions registers those that it takes. -/
theorem scanDefinitions_eq_mapM (path : String) (ds : List Definition) :
    (scanDefinitions path ds).2 =
      (ds.filter (·.kind ≠ .initializer)).mapM fun d => d.register (.scanned path) := by
  induction ds with
  | nil => rfl
  | cons d rest ih =>
    by_cases hk : d.kind = .initializer
    · have hs : ¬ d.kind.isScannable = true := by simp [Kind.isScannable, hk]
      rw [scanDefinitions, if_neg hs, List.filter_cons_of_neg (by simpa using hk)]
      exact ih
    · have hs : d.kind.isScannable = true := by simpa [Kind.isScannable] using hk
      rw [scanDefinitions, if_pos hs, List.filter_cons_of_pos (by simpa using hk), mapM_cons_eq, ← ih]
      cases d.register (.scanned path) <;> rfl

/-- A scan registers the definitions that it looks at. -/
theorem scanManifests_eq_mapM (roots : List String) (ms : List Manifest) :
    (scanManifests roots ms).2 =
      (eligible roots ms).mapM fun e => e.2.register (.scanned e.1) := by
  induction ms with
  | nil => rfl
  | cons m rest ih =>
    have hunder : roots.any (isUnder m.path) = true ↔ ∃ root ∈ roots, LiesUnder m.path root := by
      simp only [List.any_eq_true, isUnder_iff]
    unfold eligible at ih ⊢
    by_cases hm : ∃ root ∈ roots, LiesUnder m.path root
    · rw [scanManifests, if_pos (hunder.mpr hm), List.filter_cons_of_pos (by simpa using hm),
        List.flatMap_cons, List.mapM_append, List.mapM_map, ← ih]
      have hdefs := scanDefinitions_eq_mapM m.path m.definitions
      cases hfound : scanDefinitions m.path m.definitions with
      | mk alerts answer =>
        rw [hfound] at hdefs
        change answer = _ at hdefs
        rw [Function.comp_def, ← hdefs]
        cases answer with
        | error e => rfl
        | ok found =>
          show (scanManifests roots rest).2.map _ = _
          cases (scanManifests roots rest).2 <;> rfl
    · rw [scanManifests, if_neg (fun h => hm (hunder.mp h)),
        List.filter_cons_of_neg (by simpa using hm)]
      exact ih

/-! ## More roots, and fewer -/

/-- Below more roots a scan looks at more. -/
theorem eligible_sublist {roots more : List String} (hr : roots ⊆ more) (ms : List Manifest) :
    (eligible roots ms).Sublist (eligible more ms) := by
  refine List.Sublist.flatMap (List.monotone_filter_right ms fun m hm => ?_) _
  simp only [decide_eq_true_eq] at hm ⊢
  obtain ⟨root, hin, hroot⟩ := hm
  exact ⟨root, hr hin, hroot⟩

/-- Fewer steps succeed if more do, and answer with a part of what these answer with. -/
theorem mapM_sublist {α β ε : Type} {f : α → Except ε β} {xs more : List α} {zs : List β}
    (hs : xs.Sublist more) (hm : more.mapM f = .ok zs) :
    ∃ ys, xs.mapM f = .ok ys ∧ ys.Sublist zs := by
  simp only [mapM_eq_ok_iff] at hm ⊢
  induction hs generalizing zs with
  | slnil =>
    obtain rfl := List.forall₂_nil_left_iff.mp hm
    exact ⟨[], .nil, .slnil⟩
  | cons x _ ih =>
    obtain ⟨z, rest, -, hrest, rfl⟩ := List.forall₂_cons_left_iff.mp hm
    obtain ⟨ys, hys, hsub⟩ := ih hrest
    exact ⟨ys, hys, hsub.cons z⟩
  | cons_cons x _ ih =>
    obtain ⟨z, rest, hz, hrest, rfl⟩ := List.forall₂_cons_left_iff.mp hm
    obtain ⟨ys, hys, hsub⟩ := ih hrest
    exact ⟨z :: ys, .cons hz hys, hsub.cons_cons z⟩

/-- A scan succeeds just if all that it looks at can be registered. Then it answers with one
    registration of each, in their order, and otherwise with the refusal of the first that cannot.
    The answer goes by the set of the roots; below more roots nothing is lost that is found below
    fewer; and what lies under a root lies under all roots above it. -/
theorem scan_finds (roots : List String) (ms : List Manifest) :
    ((∃ found, (scanManifests roots ms).2 = .ok found) ↔ ∀ e ∈ eligible roots ms, e.2.IsUsable) ∧
    (∀ found, (scanManifests roots ms).2 = .ok found →
      List.Forall₂ (fun e r => r.IsOf e.1 e.2) (eligible roots ms) found) ∧
    (∀ error, (scanManifests roots ms).2 = .error error ↔
      ∃ front path d back, eligible roots ms = front ++ (path, d) :: back ∧
        (∀ e ∈ front, e.2.IsUsable) ∧ ¬ d.IsUsable ∧ error = d.refusal path) ∧
    (∀ others, (∀ root, root ∈ others ↔ root ∈ roots) →
      (scanManifests others ms).2 = (scanManifests roots ms).2) ∧
    (∀ more, roots ⊆ more → ∀ found, (scanManifests more ms).2 = .ok found →
      ∃ part, (scanManifests roots ms).2 = .ok part ∧ part.Sublist found) ∧
    (∀ path root, isUnder path root = true ↔ LiesUnder path root) ∧
    ∀ path middle root, LiesUnder path middle → LiesUnder middle root → LiesUnder path root := by
  have husable : ∀ e : String × Definition,
      (∃ r, e.2.register (.scanned e.1) = .ok r) ↔ e.2.IsUsable := by
    intro e
    constructor
    · rintro ⟨r, hr⟩
      exact (Definition.register_eq_ok hr).1
    · intro hu
      rcases e.2.register_cases e.1 with ⟨-, r, hr, -⟩ | ⟨hn, -⟩
      · exact ⟨r, hr⟩
      · exact absurd hu hn
  have hfailed : ∀ error, (scanManifests roots ms).2 = .error error ↔
      ∃ front path d back, eligible roots ms = front ++ (path, d) :: back ∧
        (∀ e ∈ front, e.2.IsUsable) ∧ ¬ d.IsUsable ∧ error = d.refusal path := by
    intro error
    simp only [scanManifests_eq_mapM, mapM_eq_error_iff, husable, Prod.exists,
      Definition.register_eq_error_iff]
  have hfound : ∀ found, (scanManifests roots ms).2 = .ok found →
      (∀ e ∈ eligible roots ms, e.2.IsUsable) ∧
        List.Forall₂ (fun e r => r.IsOf e.1 e.2) (eligible roots ms) found := by
    intro found h
    rw [scanManifests_eq_mapM, mapM_eq_ok_iff] at h
    exact (List.forall₂_and_left _ _).mp (h.imp fun _ _ => Definition.register_eq_ok)
  refine ⟨⟨fun ⟨found, h⟩ => (hfound found h).1, ?_⟩, fun found h => (hfound found h).2, hfailed, ?_,
    ?_, isUnder_iff, fun _ _ _ => LiesUnder.trans⟩
  · intro hall
    cases hanswer : (scanManifests roots ms).2 with
    | ok found => exact ⟨found, rfl⟩
    | error error =>
      obtain ⟨front, path, d, back, heq, -, hd, -⟩ := (hfailed error).mp hanswer
      exact absurd (hall (path, d) (by rw [heq]; simp)) hd
  · intro others hsame
    have hlooks : eligible others ms = eligible roots ms := by
      simp only [eligible, hsame]
    rw [scanManifests_eq_mapM, scanManifests_eq_mapM, hlooks]
  · intro more hmore found hmany
    rw [scanManifests_eq_mapM] at hmany ⊢
    exact mapM_sublist (eligible_sublist hmore ms) hmany

end BootEngine
