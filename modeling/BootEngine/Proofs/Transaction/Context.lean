import Mathlib.Data.List.DropRight
import Mathlib.Order.Bounds.Basic
import BootEngine.Number.Machine
import BootEngine.Transaction.Context

/-!
# Contexts in use

A context may be entered and left, marked, given effects and asked for them, in any order and as
often as one likes. What has become of it can be told from its uses alone.

Each effect that is put off before the first mark is handed out once, is still held, or was held at
the mark and is lost, and the order is that in which the effects came. From the mark on there is
nothing to hand out.

Since the depth stops at zero, an exit that nobody has entered for is forgotten. So the depth is not
the surplus of all entries over all exits, but the greatest surplus of any last stretch of the uses.

Contents:
* `Context.Use`, `Context.use`, `Context.play`, `Context.handedOut`: contexts in use.
* `Context.IsSpent`, `Context.IsSpent.play`: what a mark does for good.
* `Context.effects_append_deferred`: without a mark no effect gets lost.
* `Context.surplus`, `Context.isGreatest_use`, `Context.isGreatest_play`: the depth.
* `Context.foldlM_count?`: the depth in a word of 64 bits.
* `Context.Accounts`, `Context.Counts`: what the uses of a context tell.
* `context_told_by_uses`: all that is done with a fresh context.
-/

namespace BootEngine.Transaction

namespace Context

variable {Effect : Type}

/-! ## Uses -/

/-- Something that is done with a context. -/
inductive Use (Effect : Type) where
  | enter
  | exit
  | defer (effect : Effect)
  | markRolledBack
  | takeEffects
  deriving DecidableEq

namespace Use

/-- The effect that a use puts off. -/
def effect? : Use Effect → Option Effect
  | defer effect => some effect
  | _ => none

/-- A nested scope begins. -/
def isEnter : Use Effect → Bool
  | enter => true
  | _ => false

/-- A nested scope ends. -/
def isExit : Use Effect → Bool
  | exit => true
  | _ => false

/-- A nested scope begins or ends. -/
def isNesting (u : Use Effect) : Bool := u.isEnter || u.isExit

/-- The effects that are held are taken. -/
def isTake : Use Effect → Bool
  | takeEffects => true
  | _ => false

/-- A counter of 64 bits that goes with the depth: it stops at zero, and fails where it would need
    one bit more. -/
def count? (depth : Nat) : Use Effect → Option Nat
  | enter => if depth + 1 < Number.wordCount 64 then some (depth + 1) else none
  | exit => some (depth - 1)
  | _ => some depth

end Use

/-- Uses a context. -/
def use (c : Context Effect) : Use Effect → Context Effect
  | .enter => c.enter
  | .exit => c.exit
  | .defer effect => c.defer effect
  | .markRolledBack => c.markRolledBack
  | .takeEffects => c.takeEffects.2

/-- What a use hands out, if it is one that takes effects. -/
def answer? (c : Context Effect) : Use Effect → Option (List Effect)
  | .takeEffects => some c.takeEffects.1
  | _ => none

/-- Uses a context several times. -/
def play (c : Context Effect) (uses : List (Use Effect)) : Context Effect := uses.foldl use c

/-- What uses hand out: one list for each of them that takes effects. -/
def handedOut (c : Context Effect) : List (Use Effect) → List (List Effect)
  | [] => []
  | u :: uses => (c.answer? u).toList ++ (c.use u).handedOut uses

/-- The effects that uses put off, in order. -/
def deferred (uses : List (Use Effect)) : List Effect := uses.filterMap Use.effect?

/-- How many more entries than exits there are. -/
def surplus (uses : List (Use Effect)) : Int :=
  (uses.countP Use.isEnter : Int) - (uses.countP Use.isExit : Int)

/-- The surpluses of all last stretches of the uses, the empty one included. -/
def surpluses (uses : List (Use Effect)) : Set Int := {n | ∃ s, s <:+ uses ∧ surplus s = n}

variable (c : Context Effect)

theorem play_append (uses later : List (Use Effect)) :
    c.play (uses ++ later) = (c.play uses).play later :=
  List.foldl_append

theorem play_concat (uses : List (Use Effect)) (u : Use Effect) :
    c.play (uses ++ [u]) = (c.play uses).use u :=
  List.foldl_concat use c u uses

theorem handedOut_append (uses later : List (Use Effect)) :
    c.handedOut (uses ++ later) = c.handedOut uses ++ (c.play uses).handedOut later := by
  induction uses generalizing c with
  | nil => rfl
  | cons u uses ih =>
    rw [List.cons_append, handedOut, handedOut, ih, List.append_assoc]
    rfl

theorem deferred_append (uses later : List (Use Effect)) :
    deferred (uses ++ later) = deferred uses ++ deferred later :=
  List.filterMap_append

theorem surplus_append (uses later : List (Use Effect)) :
    surplus (uses ++ later) = surplus uses + surplus later := by
  simp only [surplus, List.countP_append]
  omega

/-! ## After a mark -/

/-- A context that is marked and holds nothing. -/
def IsSpent (c : Context Effect) : Prop := c.rolledBack = true ∧ c.effects = []

variable {c}

theorem isSpent_markRolledBack : c.markRolledBack.IsSpent := ⟨rfl, rfl⟩

/-- Nothing fills it again: the one use that could is refused, because it is marked. -/
theorem IsSpent.use (h : c.IsSpent) (u : Use Effect) : (c.use u).IsSpent := by
  cases u with
  | enter => exact h
  | exit => exact h
  | defer effect =>
    show (c.defer effect).IsSpent
    rw [defer_of_rolledBack effect h.1]
    exact h
  | markRolledBack => exact isSpent_markRolledBack
  | takeEffects => exact ⟨h.1, rfl⟩

theorem IsSpent.play (h : c.IsSpent) (uses : List (Use Effect)) : (c.play uses).IsSpent := by
  induction uses generalizing c with
  | nil => exact h
  | cons u uses ih => exact ih (h.use u)

/-- Whoever asks it for effects gets none. -/
theorem IsSpent.handedOut (h : c.IsSpent) (uses : List (Use Effect)) :
    ∀ taken ∈ c.handedOut uses, taken = [] := by
  induction uses generalizing c with
  | nil => exact fun taken hin => absurd hin List.not_mem_nil
  | cons u uses ih =>
    intro taken hin
    rcases List.mem_append.mp hin with hnow | hlater
    · cases u with
      | takeEffects => exact (List.mem_singleton.mp hnow).trans h.2
      | _ => exact absurd hnow List.not_mem_nil
    · exact ih (h.use u) taken hlater

theorem isSpent_of_mem {uses : List (Use Effect)} (hmark : .markRolledBack ∈ uses) :
    (c.play uses).IsSpent := by
  obtain ⟨before, after, rfl⟩ := List.append_of_mem hmark
  rw [play_append]
  exact isSpent_markRolledBack.play after

/-! ## Without a mark -/

theorem rolledBack_use (u : Use Effect) (hu : .markRolledBack ≠ u) :
    (c.use u).rolledBack = c.rolledBack := by
  cases u with
  | enter => rfl
  | exit => rfl
  | defer effect => exact rolledBack_defer effect c
  | markRolledBack => exact absurd rfl hu
  | takeEffects => rfl

theorem rolledBack_play {uses : List (Use Effect)} (hnone : .markRolledBack ∉ uses) :
    (c.play uses).rolledBack = c.rolledBack := by
  induction uses generalizing c with
  | nil => rfl
  | cons u uses ih =>
    rw [List.mem_cons, not_or] at hnone
    exact (ih hnone.2).trans (rolledBack_use u hnone.1)

theorem effects_use (hopen : c.rolledBack = false) {u : Use Effect} (hu : .markRolledBack ≠ u) :
    (c.use u).effects = if u.isTake then [] else c.effects ++ deferred [u] := by
  cases u with
  | enter => exact (List.append_nil _).symm
  | exit => exact (List.append_nil _).symm
  | defer effect => exact effects_defer effect hopen
  | markRolledBack => exact absurd rfl hu
  | takeEffects => rfl

/-- What was held and what one use puts off is handed out by it or held. -/
theorem effects_append_deferred_singleton (hopen : c.rolledBack = false) {u : Use Effect}
    (hu : .markRolledBack ≠ u) :
    c.effects ++ deferred [u] = (c.handedOut [u]).flatten ++ (c.use u).effects := by
  rw [effects_use hopen hu]
  cases u with
  | takeEffects =>
    show c.effects ++ [] = (c.effects ++ []) ++ []
    rw [List.append_nil, List.append_nil]
  | _ => rfl

/-- What was held and what is put off, in this order, is handed out or held in the end. -/
theorem effects_append_deferred (hopen : c.rolledBack = false) {uses : List (Use Effect)}
    (hnone : .markRolledBack ∉ uses) :
    c.effects ++ deferred uses = (c.handedOut uses).flatten ++ (c.play uses).effects := by
  induction uses generalizing c with
  | nil => exact List.append_nil _
  | cons u uses ih =>
    rw [List.mem_cons, not_or] at hnone
    obtain ⟨hu, huses⟩ := hnone
    have hopen' : (c.use u).rolledBack = false := (rolledBack_use u hu).trans hopen
    calc c.effects ++ deferred (u :: uses)
        = (c.effects ++ deferred [u]) ++ deferred uses := by
          rw [← List.singleton_append, deferred_append, List.append_assoc]
      _ = (c.handedOut [u]).flatten ++ ((c.use u).effects ++ deferred uses) := by
          rw [effects_append_deferred_singleton hopen hu, List.append_assoc]
      _ = (c.handedOut [u]).flatten ++
            (((c.use u).handedOut uses).flatten ++ ((c.use u).play uses).effects) := by
          rw [ih hopen' huses]
      _ = (c.handedOut ([u] ++ uses)).flatten ++ (c.play ([u] ++ uses)).effects := by
          rw [handedOut_append, List.flatten_append, List.append_assoc]
          rfl

/-- What a context holds that was fresh has been put off since effects were last taken. -/
theorem effects_play_start (handle : Handle) {uses : List (Use Effect)}
    (hnone : .markRolledBack ∉ uses) :
    ((start handle).play uses).effects = deferred (uses.rtakeWhile fun u => !u.isTake) := by
  induction uses using List.reverseRecOn with
  | nil => rfl
  | append_singleton uses u ih =>
    rw [List.mem_append, List.mem_singleton, not_or] at hnone
    obtain ⟨huses, hu⟩ := hnone
    have hopen : ((start handle).play uses).rolledBack = false := rolledBack_play huses
    rw [play_concat, effects_use hopen hu, List.rtakeWhile_concat, ih huses]
    cases u.isTake with
    | true => rfl
    | false => exact (deferred_append _ [u]).symm

/-! ## The depth -/

/-- The depth goes with the surplus, unless this would lead below zero. -/
theorem depth_use (u : Use Effect) :
    ((c.use u).depth : Int) = c.depth + surplus [u] ∨
      (c.depth + surplus [u] < 0 ∧ (c.use u).depth = 0) := by
  cases u with
  | enter => exact .inl rfl
  | exit =>
    have hsurplus : surplus [(Use.exit : Use Effect)] = -1 := rfl
    have hdepth : (c.use .exit).depth = c.depth - 1 := rfl
    omega
  | defer effect =>
    left
    show ((c.defer effect).depth : Int) = c.depth + 0
    rw [depth_defer, Int.add_zero]
  | markRolledBack => exact .inl (Int.add_zero _).symm
  | takeEffects => exact .inl (Int.add_zero _).symm

theorem mem_surpluses_concat {uses : List (Use Effect)} {u : Use Effect} {n : Int} :
    n ∈ surpluses (uses ++ [u]) ↔ n = 0 ∨ ∃ m ∈ surpluses uses, m + surplus [u] = n := by
  constructor
  · rintro ⟨s, hs, rfl⟩
    rcases List.suffix_concat_iff.mp hs with rfl | ⟨t, rfl, ht⟩
    · exact .inl rfl
    · exact .inr ⟨surplus t, ⟨t, ht, rfl⟩, (surplus_append t [u]).symm⟩
  · rintro (rfl | ⟨m, ⟨t, ht, rfl⟩, rfl⟩)
    · exact ⟨[], List.nil_suffix, rfl⟩
    · have hlonger : t ++ [u] <:+ uses ++ [u] := List.suffix_concat_iff.mpr (.inr ⟨t, rfl, ht⟩)
      exact ⟨t ++ [u], hlonger, surplus_append t [u]⟩

/-- A further use: each last stretch is one longer, and the empty one is new. -/
theorem isGreatest_use {uses : List (Use Effect)} (h : IsGreatest (surpluses uses) (c.depth : Int))
    (u : Use Effect) : IsGreatest (surpluses (uses ++ [u])) ((c.use u).depth : Int) := by
  have hdepth := depth_use (c := c) u
  constructor
  · rw [mem_surpluses_concat]
    rcases hdepth with heq | ⟨-, hzero⟩
    · exact .inr ⟨c.depth, h.1, heq.symm⟩
    · exact .inl (congrArg Int.ofNat hzero)
  · intro n hn
    rcases mem_surpluses_concat.mp hn with rfl | ⟨m, hm, rfl⟩
    · exact Int.natCast_nonneg _
    · have hle : m ≤ c.depth := h.2 hm
      omega

theorem isGreatest_play (handle : Handle) (uses : List (Use Effect)) :
    IsGreatest (surpluses uses) (((start handle).play uses).depth : Int) := by
  induction uses using List.reverseRecOn with
  | nil =>
    refine ⟨⟨[], List.nil_suffix, rfl⟩, ?_⟩
    rintro n ⟨s, hs, rfl⟩
    rw [List.suffix_nil.mp hs]
    exact le_refl _
  | append_singleton uses u ih =>
    rw [play_concat]
    exact isGreatest_use ih u

/-- Uses that neither enter nor leave do not show in the depth. -/
theorem depth_play_filter (uses : List (Use Effect)) :
    (c.play (uses.filter Use.isNesting)).depth = (c.play uses).depth := by
  induction uses using List.reverseRecOn with
  | nil => rfl
  | append_singleton uses u ih =>
    have hnow := depth_use (c := c.play uses) u
    have hthen := depth_use (c := c.play (uses.filter Use.isNesting)) u
    rw [List.filter_append, play_concat]
    cases hnests : u.isNesting with
    | true =>
      rw [List.filter_cons_of_pos hnests, List.filter_nil, play_concat]
      omega
    | false =>
      have hzero : surplus [u] = 0 := by
        obtain ⟨hno, hno'⟩ := Bool.or_eq_false_iff.mp hnests
        simp [surplus, hno, hno']
      rw [List.filter_cons_of_neg (Bool.eq_false_iff.mp hnests), List.filter_nil, List.append_nil]
      omega

theorem depth_play_le (handle : Handle) (uses : List (Use Effect)) :
    ((start handle).play uses).depth ≤ uses.length := by
  obtain ⟨⟨s, hs, hsurplus⟩, -⟩ := isGreatest_play handle uses
  have hentries : s.countP Use.isEnter ≤ s.length := List.countP_le_length
  have hlength : s.length ≤ uses.length := hs.length_le
  rw [surplus] at hsurplus
  omega

theorem count?_eq_some {u : Use Effect} (h : c.depth + 1 < Number.wordCount 64) :
    u.count? c.depth = some (c.use u).depth := by
  cases u with
  | enter => exact if_pos h
  | exit => rfl
  | defer effect =>
    show some c.depth = some (c.defer effect).depth
    rw [depth_defer]
  | markRolledBack => rfl
  | takeEffects => rfl

/-- As long as there are fewer uses than numbers of 64 bits, a counter of 64 bits has room for the
    depth. -/
theorem foldlM_count? (handle : Handle) {uses : List (Use Effect)}
    (hfew : uses.length < Number.wordCount 64) :
    uses.foldlM Use.count? 0 = some ((start handle).play uses).depth := by
  induction uses using List.reverseRecOn with
  | nil => rfl
  | append_singleton uses u ih =>
    rw [List.length_append, List.length_singleton] at hfew
    have hdepth := depth_play_le handle uses
    rw [List.foldlM_append, ih (by omega), play_concat]
    show List.foldlM Use.count? _ [u] = _
    rw [List.foldlM_cons, count?_eq_some (by omega)]
    rfl

/-! ## What can be told -/

/-- What has become of the effects and of the mark of a context that was used. -/
structure Accounts (c : Context Effect) (uses : List (Use Effect)) : Prop where
  /-- As long as there is no mark, all that was put off has been handed out or is held. -/
  unmarked : .markRolledBack ∉ uses →
    deferred uses = (c.handedOut uses).flatten ++ (c.play uses).effects
  /-- What is held then has been put off since effects were last taken. -/
  held : .markRolledBack ∉ uses →
    (c.play uses).effects = deferred (uses.rtakeWhile fun u => !u.isTake)
  /-- Of what was put off before the first mark, exactly what was held at it is lost. -/
  marked : ∀ before after, .markRolledBack ∉ before → uses = before ++ .markRolledBack :: after →
    deferred before =
      (c.handedOut uses).flatten ++ (c.play uses).effects ++ (c.play before).effects
  /-- From a mark on nothing is held. -/
  empty : .markRolledBack ∈ uses → (c.play uses).effects = []
  /-- From a mark on nothing is handed out. -/
  silent : .markRolledBack ∈ uses → ∀ later, ∀ taken ∈ (c.play uses).handedOut later, taken = []
  /-- It is marked once somebody has marked it. -/
  rolledBack_iff : (c.play uses).rolledBack = true ↔ .markRolledBack ∈ uses
  /-- It stays marked. -/
  final : (c.play uses).rolledBack = true → ∀ later, (c.play (uses ++ later)).rolledBack = true

/-- What has become of the depth of a context that was used. -/
structure Counts (c : Context Effect) (uses : List (Use Effect)) : Prop where
  /-- The depth is the greatest surplus of entries over exits in any last stretch. -/
  greatest : IsGreatest (surpluses uses) ((c.play uses).depth : Int)
  /-- Nothing but entries and exits shows in it. -/
  unaffected : (c.play (uses.filter Use.isNesting)).depth = (c.play uses).depth
  /-- It does not outgrow 64 bits in fewer uses than there are numbers of 64 bits. -/
  fits : uses.length < Number.wordCount 64 → uses.foldlM Use.count? 0 = some (c.play uses).depth

theorem rolledBack_play_iff (handle : Handle) (uses : List (Use Effect)) :
    ((start handle).play uses).rolledBack = true ↔ .markRolledBack ∈ uses := by
  refine ⟨fun h => ?_, fun hmark => (isSpent_of_mem hmark).1⟩
  by_contra hnone
  rw [rolledBack_play hnone] at h
  cases h

/-- The first mark loses what is held, and nobody gets anything afterwards. -/
theorem deferred_before_mark (handle : Handle) {before : List (Use Effect)}
    (after : List (Use Effect)) (hnone : .markRolledBack ∉ before) :
    let c : Context Effect := start handle
    let uses := before ++ .markRolledBack :: after
    deferred before =
      (c.handedOut uses).flatten ++ (c.play uses).effects ++ (c.play before).effects := by
  intro c uses
  have hnow : (c.play uses).effects = [] :=
    (isSpent_of_mem (List.mem_append_right _ List.mem_cons_self)).2
  have hlater : ((c.play before).handedOut (.markRolledBack :: after)).flatten = [] :=
    List.flatten_eq_nil_iff.mpr (isSpent_markRolledBack.handedOut after)
  calc deferred before
      = c.effects ++ deferred before := rfl
    _ = (c.handedOut before).flatten ++ (c.play before).effects :=
        effects_append_deferred rfl hnone
    _ = (c.handedOut uses).flatten ++ (c.play uses).effects ++ (c.play before).effects := by
        rw [hnow, List.append_nil, handedOut_append, List.flatten_append, hlater, List.append_nil]

end Context

open Context (Use)

/-- Whatever is done with a fresh context, and in whatever order, its uses tell what it has handed
    out, what it holds, whether it is marked, and how deep it is. -/
theorem context_told_by_uses {Effect : Type} (handle : Handle) (uses : List (Use Effect)) :
    (Context.start handle).Accounts uses ∧ (Context.start handle).Counts uses := by
  refine ⟨?_, Context.isGreatest_play handle uses, Context.depth_play_filter uses,
    Context.foldlM_count? handle⟩
  have hmarked (us : List (Use Effect)) := Context.rolledBack_play_iff handle us
  have hkept (hnone : .markRolledBack ∉ uses) :=
    Context.effects_append_deferred (c := .start handle) rfl hnone
  refine ⟨hkept, Context.effects_play_start handle, ?_,
    fun hmark => (Context.isSpent_of_mem hmark).2,
    fun hmark => (Context.isSpent_of_mem hmark).handedOut, hmarked uses, fun h later => ?_⟩
  · rintro before after hnone rfl
    exact Context.deferred_before_mark handle after hnone
  · exact (hmarked _).mpr (List.mem_append_left later ((hmarked uses).mp h))

/-- A context is left before anybody has entered it, hands out one effect, is marked while it holds
    another, and refuses a third. -/
theorem context_told_by_uses_threeEffects :
    let c : Context Nat := .start 1
    let before : List (Use Nat) := [.exit, .enter, .defer 1, .takeEffects, .enter, .defer 2]
    let uses := before ++ .markRolledBack :: [.defer 3, .exit, .takeEffects]
    .markRolledBack ∉ before ∧ uses.length < Number.wordCount 64 ∧
      Context.deferred before =
        (c.handedOut uses).flatten ++ (c.play uses).effects ++ (c.play before).effects ∧
      c.handedOut uses = [[1], []] ∧ (c.play before).effects = [2] ∧
      IsGreatest (Context.surpluses uses) 1 ∧ uses.foldlM Use.count? 0 = some 1 := by
  intro c before uses
  obtain ⟨haccounts, hcounts⟩ := context_told_by_uses 1 uses
  have hunmarked : .markRolledBack ∉ before := by decide
  have hfew : uses.length < Number.wordCount 64 := by decide
  exact ⟨hunmarked, hfew, haccounts.marked before _ hunmarked rfl, by decide, by decide,
    hcounts.greatest, hcounts.fits hfew⟩

end BootEngine.Transaction
