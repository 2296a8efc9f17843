import BootEngine.Proofs.Work.Parties
import BootEngine.Proofs.Work.Waiting

/-!
# A branch beside others, and the same branch alone

A branch runs beside others in a join, and it runs alone in a world of its own. The two runs are
kept abreast: when the branch has its turn in the join and can go on, it is looked at once in its
own world. When it cannot go on, nothing happens there. So its own world can fall behind the join,
by passes and by the clock, but it never has to catch up.

Contents:
* `Setting`, `Setting.IsFair`: the branch, its realm and the realm of the others.
* `Standing`: how far the branch is in the run alone, by what has become of it in the join.
* `Shared`: the two worlds, and who has what in the shared one.
* `Abreast`: the two runs.
* `Abreast.ownTurn`, `Abreast.theirTurn`, `Abreast.drop`, `Abreast.wait`: what keeps them abreast.
-/

namespace BootEngine.Work

open Transaction (Terminal Handle Source Event)

variable {H : Host}

/-- A branch of a join on a source with a number of permits, and what it is run on. -/
structure Setting (H : Host) where
  own : Realm H
  theirs : Realm H
  permits : Nat
  index : Nat
  limit : Nat
  fuel : Nat
  start : World H
  program : List (Step H)

/-- The branch and the others have nothing in common, and what the others do to the application does
    not show to the branch. Nothing is left from before. -/
structure Setting.IsFair (s : Setting H) : Prop where
  own : s.own.IsClosed
  theirs : s.theirs.IsClosed
  names : ∀ name, s.own.names name → ¬ s.theirs.names name
  clean : s.start.background = []
  hidden : ∀ action x y, s.theirs.actions action → s.own.same x y →
    s.own.same (H.perform action x).2 y
  steady : ∀ x, s.theirs.same x x

/-- The branch runs alone, in a number of passes at most. -/
def Setting.alone (s : Setting H) (passes : Nat) : World H × Verdict H :=
  drive s.limit s.fuel passes s.start (.exec 0 .null s.program)

/-- What a branch does when it is looked at next. -/
def Branch.focus? : Branch H (Paused H) → Option (Focus H)
  | .idle steps => some (.exec 0 .null steps)
  | .paused p => some (.enter p)
  | .finished => none

/-- What becomes of a branch that has come to rest. -/
def Focus.settled : Focus H → Branch H (Paused H)
  | .pause p => .paused p
  | _ => .finished

/-- How far the branch is in the run alone, after a number of passes over the join; it has, or has
    not, been looked at once more since. -/
inductive Standing (s : Setting H) (N : Pairing) (passes : Nat) (looked : Bool) (now : Nat)
    (fates : List (Verdict H)) (v : World H) : Branch H (Paused H) → Prop
  | idle (hv : v = s.start) (hlooked : looked = false) (hnow : now = v.now) (hfates : fates = [])
      (htied : Tied s.own N 0 0 s.program) :
      Standing s N passes looked now fates v (.idle s.program)
  | paused {p p' : Paused H} (k : Nat) (hk : k + 1 ≤ passes + looked.toNat)
      (halone : ∀ m, s.alone (k + 1 + m) =
        if s.limit ≤ v.now then (p'.abandon v, .stuck)
        else drive s.limit s.fuel m (waitFor s.limit p' v) (.enter p'))
      (hlike : PausedLike s.own N p p') (htime : InTime s.limit p' v now)
      (hearly : looked = false → v.now < s.limit) (hfates : fates = []) :
      Standing s N passes looked now fates v (.paused p)
  | finished (verdict : Verdict H)
      (halone : ∀ m, passes + looked.toNat ≤ m → s.alone m = (v, verdict))
      (hfates : fates = [verdict]) : Standing s N passes looked now fates v .finished

/-- The branch has a world in common with others, and one of its own. -/
structure Shared (s : Setting H) (T : List (Heard H)) (w : World H) (N F : Pairing) (v : World H) :
    Prop where
  agree : Agree s.own N s.permits w v
  theirs : Agree s.theirs F s.permits w w
  nothing : N.SharesNothing F
  told : Told N T v
  foresees : Foresees N w v

/-- What has been heard of the end of the branch. -/
def fatesOf (T : List (Heard H)) : List (Verdict H) := T.filterMap Heard.fate?

/-- The branch runs beside others, abreast of the run alone. -/
structure Abreast (s : Setting H) (passes : Nat) (looked : Bool) (T : List (Heard H)) (w : World H)
    (items : List (Branch H (Paused H))) (N F : Pairing) (v : World H) : Prop where
  shared : Shared s T w N F v
  /-- Before it is looked at, nothing of it is left in the background. -/
  quiet : looked = false → ∀ c ∈ w.background, c.handle ∉ N.opened
  standing : ∃ b, items[s.index]? = some b ∧ Standing s N passes looked w.now (fatesOf T) v b
  others : ∀ j b, j ≠ s.index → items[j]? = some b →
    ∀ f, b.focus? = some f → FocusLike s.theirs F f f

section Shared

variable {s : Setting H} {T : List (Heard H)} {w w' v v' : World H} {N N' F F' : Pairing}

theorem host_of_actions (hfair : s.IsFair) {actions : List H.Action}
    (hactions : ∀ action ∈ actions, s.theirs.actions action) {x y : H.State}
    (hsame : s.own.same x y) :
    s.own.same (actions.foldl (fun x action => (H.perform action x).2) x) y := by
  induction actions generalizing x with
  | nil => exact hsame
  | cons action rest ih =>
    exact ih (fun a ha => hactions a (List.mem_cons_of_mem _ ha))
      (hfair.hidden action x y (hactions action (List.mem_cons_self ..)) hsame)

/-- The others do something. -/
theorem Shared.move (hfair : s.IsFair) (h : Shared s T w N F v)
    (ha : Alike s.theirs s.permits ⟨F, w, w⟩ F' w' w') : Shared s T w' N F' v := by
  obtain ⟨-, hagree, hsince⟩ := ha
  have hnothing := h.nothing.right h.agree hsince
  have hleaves : Leaves s.own N.leftUnits w w' := by
    refine hsince.leaves h.theirs.runtime.1 hagree.runtime.1 (fun u hu hin => ?_) hfair.names
    obtain ⟨p, hp, rfl⟩ := List.mem_map.mp hin
    exact (hnothing.units p hp).1 hu
  have hhost : s.own.same w'.host v.host := by
    obtain ⟨actions, hactions, heq⟩ := hsince.actions
    rw [heq]
    exact host_of_actions hfair hactions h.agree.host
  refine ⟨?_, hagree, hnothing, h.told, h.foresees.others hagree hsince hnothing⟩
  exact h.agree.frame hleaves (.refl ..) hhost ⟨hagree.spare.1, h.agree.spare.2⟩
    (Nat.le_trans h.agree.fewer hsince.requests)

/-- The branch does something, in the shared world and in its own. -/
theorem Shared.own (hfair : s.IsFair) (h : Shared s T w N F v)
    (hleft : ∀ c ∈ w.background, c.handle ∉ N.opened) (hright : v.background = [])
    (ha : Alike s.own s.permits ⟨N, w, v⟩ N' w' v') {last : List (Heard H)}
    (hlast : last.filterMap Heard.entry? = []) :
    Shared s (T ++ (w.since w').map .wrote ++ last) w' N' F v' := by
  obtain ⟨-, hagree, hsince⟩ := ha
  have hnothing := h.nothing.left h.theirs hsince
  have hnames : ∀ name, s.theirs.names name → ¬ s.own.names name := fun name htheirs hown =>
    hfair.names name hown htheirs
  have hleaves : ∀ us : List UnitId, (∀ u ∈ us, u ∉ N'.leftUnits) → Leaves s.theirs us w w' :=
    fun us hus => hsince.leaves h.theirs.runtime.1 hagree.runtime.1 hus hnames
  refine ⟨hagree, ?_, hnothing, h.told.own hsince hlast,
    h.foresees.own hagree hsince hleft hright⟩
  refine h.theirs.frame (hleaves _ fun u hu => ?_) (hleaves _ fun u hu => ?_) (hfair.steady _)
    ⟨hagree.spare.1, hagree.spare.1⟩ (Nat.le_refl _)
  · obtain ⟨p, hp, rfl⟩ := List.mem_map.mp hu
    exact (hnothing.units p hp).1
  · obtain ⟨p, hp, rfl⟩ := List.mem_map.mp hu
    exact (hnothing.units p hp).2

/-- The rollbacks in the background of the shared world run, and its clock moves. -/
theorem Shared.clearLeft (hfair : s.IsFair) (h : Shared s T w N F v)
    (hclears : Clears (s.permits - w.requests) w.background { w with background := [] } w')
    (now : Nat) : Shared s T { w' with now } N F v := by
  have hrequests : w'.requests = w.requests := hclears.requests
  have hspare : HasSpare (s.permits - w'.requests) w'.source := by
    rw [hrequests]
    exact hclears.spare
  refine ⟨?_, ?_, h.nothing, h.told, h.foresees.clearLeft hclears now⟩
  · refine h.agree.frame (.clear hclears now) (.refl ..) ?_ ⟨hspare, h.agree.spare.2⟩ ?_
    · show s.own.same w'.host v.host
      rw [hclears.host]
      exact h.agree.host
    · exact Nat.le_trans h.agree.fewer (Nat.le_of_eq hrequests.symm)
  · exact h.theirs.frame (.clear hclears now) (.clear hclears now) (hfair.steady _)
      ⟨hspare, hspare⟩ (Nat.le_refl _)

/-- The rollbacks in the background of its own world run, and its clock moves. -/
theorem Shared.clearRight (h : Shared s T w N F v)
    (hclears : Clears (s.permits - v.requests) v.background { v with background := [] } v')
    (now : Nat) : Shared s T w N F { v' with now } := by
  have hrequests : v'.requests = v.requests := hclears.requests
  refine ⟨?_, h.theirs, h.nothing, h.told.clear hclears now, h.foresees.clearRight hclears now⟩
  refine h.agree.frame (.refl ..) (.clear hclears now) ?_ ⟨h.agree.spare.1, ?_⟩ ?_
  · show s.own.same w.host v'.host
    rw [hclears.host]
    exact h.agree.host
  · show HasSpare (s.permits - v'.requests) v'.source
    rw [hrequests]
    exact hclears.spare
  · exact Nat.le_trans (Nat.le_of_eq hrequests) h.agree.fewer

end Shared

/-! ## Turns -/

section Turns

variable {s : Setting H} {passes : Nat} {looked : Bool} {T : List (Heard H)} {w w' v : World H}
  {items : List (Branch H (Paused H))} {N N' F F' : Pairing} {k : Nat} {r : Machine H}
  {b : Branch H (Paused H)} {f : Focus H}

theorem Agree.at {R : Realm H} {n : Nat} (h : Agree R N n w v) (now : Nat) :
    Agree R N n w { v with now } := { h with }

theorem Agree.flags {R : Realm H} {n : Nat} (h : Agree R N n w v) :
    ∀ p ∈ N.units, w.isCancelled p.1 = v.isCancelled p.2 := fun p hp => (h.units p hp).cancelled

theorem settled_like {R : Realm H} (h : FocusLike R N f f) :
    ∀ g, f.settled.focus? = some g → FocusLike R N g g := by
  intro g hg
  cases h with
  | pause hp =>
    cases hg
    exact .enter hp
  | _ => cases hg

theorem others_set {R : Realm H} {j : Nat} {i : Nat} (hN : N ≤ N')
    (h : ∀ j b, j ≠ i → items[j]? = some b → ∀ g, b.focus? = some g → FocusLike R N g g)
    (hnew : j ≠ i → ∀ g, b.focus? = some g → FocusLike R N' g g) :
    ∀ j' c, j' ≠ i → (items.set j b)[j']? = some c →
      ∀ g, c.focus? = some g → FocusLike R N' g g := by
  intro j' c hj' hc g hg
  rw [List.getElem?_set] at hc
  split at hc
  · next heq =>
    split at hc
    · cases hc
      exact hnew (heq ▸ hj') g hg
    · cases hc
  · exact (h j' c hj' hc g hg).mono hN

/-- What the others put off to the background is not the branch's. -/
theorem quiet_of_move (hquiet : ∀ c ∈ w.background, c.handle ∉ N.opened)
    (hsince : Since s.theirs ⟨F, w, w⟩ F' w' w') (hnothing : N.SharesNothing F') :
    ∀ c ∈ w'.background, c.handle ∉ N.opened := by
  obtain ⟨hs, hs', hback, -, hlike⟩ := hsince.background
  intro c hc
  rw [hback] at hc
  rcases List.mem_append.mp hc with hc | hc
  · exact hquiet c hc
  · obtain ⟨id, hid, rfl⟩ := List.mem_map.mp hc
    obtain ⟨id', hpair⟩ := forall₂_mem_left hlike hid
    exact hnothing.handles id (List.mem_map_of_mem hpair)

/-- The others do something to the world; what becomes of them is told apart. -/
theorem Abreast.move (hfair : s.IsFair) (h : Abreast s passes looked T w items N F v)
    (ha : Alike s.theirs s.permits ⟨F, w, w⟩ F' w' w') {items' : List (Branch H (Paused H))}
    (hown : items'[s.index]? = items[s.index]?)
    (hothers : ∀ j b, j ≠ s.index → items'[j]? = some b →
      ∀ f, b.focus? = some f → FocusLike s.theirs F' f f) :
    Abreast s passes looked T w' items' N F' v := by
  have hshared := h.shared.move hfair ha
  have hnow : w'.now = w.now := ha.since.now
  refine ⟨hshared, fun hl => quiet_of_move (h.quiet hl) ha.since hshared.nothing, ?_, hothers⟩
  rw [hown, hnow]
  exact h.standing

/-- One of the others has its turn. -/
theorem Abreast.theirTurn (hfair : s.IsFair) (h : Abreast s passes looked T w items N F v) {j : Nat}
    (hj : j ≠ s.index) (hb : items[j]? = some b) (hf : b.focus? = some f)
    (hrest : ComesToRest k ⟨w, [], f⟩ r) (hroom : r.world.requests ≤ s.permits) :
    ∃ F', Abreast s passes looked T r.world (items.set j r.focus.settled) N F' v := by
  have hm : MachineLike s.theirs s.permits ⟨F, w, w⟩ F ⟨w, [], f⟩ ⟨w, [], f⟩ :=
    ⟨h.shared.theirs.alike rfl, .nil, h.others j b hj hb f hf⟩
  obtain ⟨F', r', hF, hrest', hr⟩ := hrest.like hfair.theirs hm hroom
  obtain rfl := hrest.unique hrest'
  refine ⟨F', h.move hfair hr.world (List.getElem?_set_ne hj) ?_⟩
  exact others_set hF h.others fun _ => settled_like hr.focus

theorem fatesOf_turn (T : List (Heard H)) (entries : List (Entry H)) (last : List (Heard H)) :
    fatesOf (T ++ entries.map .wrote ++ last) = fatesOf T ++ last.filterMap Heard.fate? := by
  have hwrote : (entries.map Heard.wrote).filterMap Heard.fate? = [] := by
    rw [List.filterMap_map]
    exact List.filterMap_eq_nil_iff.mpr fun _ _ => rfl
  rw [fatesOf, List.filterMap_append, List.filterMap_append, hwrote, List.append_nil]
  rfl

theorem lastHeard_entries (f : Focus H) : f.lastHeard.filterMap Heard.entry? = [] := by
  cases f <;> rfl

/-- The branch is looked at in both worlds at the same time. -/
theorem Shared.poll (hfair : s.IsFair) (h : Shared s T w N F v)
    (hleft : ∀ c ∈ w.background, c.handle ∉ N.opened) (hright : v.background = [])
    (hnow : w.now = v.now) {f' : Focus H} (hlike : FocusLike s.own N f f')
    (hrest : ComesToRest k ⟨w, [], f⟩ r) (hk : k ≤ s.fuel) (hroom : r.world.requests ≤ s.permits)
    {before : Nat} (hbefore : before ≤ passes)
    (halone : ∀ m, s.alone (before + m) = drive s.limit s.fuel m v f') (hfates : fatesOf T = []) :
    ∃ N' v', Shared s (T ++ (w.since r.world).map .wrote ++ r.focus.lastHeard) r.world N' F v' ∧
      Standing s N' passes true r.world.now
        (fatesOf (T ++ (w.since r.world).map .wrote ++ r.focus.lastHeard)) v' r.focus.settled := by
  have hm : MachineLike s.own s.permits ⟨N, w, v⟩ N ⟨w, [], f⟩ ⟨v, [], f'⟩ :=
    ⟨h.agree.alike hnow, .nil, hlike⟩
  obtain ⟨N', r', -, hrest', hr⟩ := hrest.like hfair.own hm hroom
  have hpass : pass s.fuel v f' = r' := hrest'.settleWithin hk
  refine ⟨N', r'.world, h.own hfair hleft hright hr.world (lastHeard_entries _), ?_⟩
  rw [fatesOf_turn, hfates, List.nil_append]
  -- a pass of the run alone ends as the turn ends
  have hone : ∀ m, s.alone (before + 1 + m) = drive s.limit s.fuel (m + 1) v f' := by
    intro m
    rw [Nat.add_assoc, Nat.add_comm 1]
    exact halone (m + 1)
  have hmany : ∀ m, passes + 1 ≤ m → ∃ j, s.alone m = drive s.limit s.fuel (j + 1) v f' := by
    intro m hle
    obtain ⟨j, rfl⟩ := Nat.exists_eq_add_of_le (Nat.le_trans (Nat.succ_le_succ hbefore) hle)
    exact ⟨j, hone j⟩
  have hend := hrest.isAtRest
  obtain ⟨w₁, layers, g⟩ := r
  obtain ⟨v₁, layers', g'⟩ := r'
  obtain ⟨halike, hlayers, hfocus⟩ := hr
  cases hlayers with
  | cons _ _ => cases g <;> cases hend
  | nil =>
    cases hfocus with
    | enter hp => cases hend
    | exec value htied => cases hend
    | finish outcome =>
      refine .finished (.ended outcome) (fun m hle => ?_) rfl
      obtain ⟨j, hj⟩ := hmany m hle
      rw [hj, drive, hpass]
    | unwind =>
      refine .finished .panicked (fun m hle => ?_) rfl
      obtain ⟨j, hj⟩ := hmany m hle
      rw [hj, drive, hpass]
    | @pause p p' hp =>
      refine .paused before (Nat.succ_le_succ hbefore) (fun m => ?_) hp ?_ (fun hl => by cases hl)
        rfl
      · rw [hone, drive, hpass]
      · exact ⟨Nat.le_of_eq halike.now.symm, fun hlt => absurd halike.now.symm (Nat.ne_of_lt hlt)⟩

/-- The branch has its turn. If it can go on, it is looked at in its own world, too. -/
theorem Abreast.ownTurn (hfair : s.IsFair) (h : Abreast s passes false T w items N F v)
    (hb : items[s.index]? = some b) (hf : b.focus? = some f)
    (hrest : ComesToRest k ⟨w, [], f⟩ r) (hk : k ≤ s.fuel) (hroom : r.world.requests ≤ s.permits) :
    ∃ N' v', Abreast s passes true (T ++ (w.since r.world).map .wrote ++ r.focus.lastHeard) r.world
      (items.set s.index r.focus.settled) N' F v' := by
  have hlength : s.index < items.length := (List.getElem?_eq_some_iff.mp hb).1
  have hset : ∀ c, (items.set s.index c)[s.index]? = some c := fun c =>
    List.getElem?_set_self hlength
  have hothers : ∀ c, ∀ j' d, j' ≠ s.index → (items.set s.index c)[j']? = some d →
      ∀ g, d.focus? = some g → FocusLike s.theirs F g g := fun c =>
    others_set F.le_refl h.others fun hne => absurd rfl hne
  have hquiet := h.quiet rfl
  obtain ⟨b', hb', hstanding⟩ := h.standing
  obtain rfl : b' = b := Option.some.inj (hb'.symm.trans hb)
  cases hstanding with
  | finished verdict halone hfates => cases hf
  | idle hv hlooked hnow hfates htied =>
    cases hf
    obtain ⟨N', v', hshared, hstanding⟩ := h.shared.poll hfair hquiet (hv ▸ hfair.clean) hnow
      (.exec .null htied) hrest hk hroom (Nat.zero_le passes)
      (fun m => by rw [Nat.zero_add, hv]; rfl) hfates
    exact ⟨N', v', hshared, (fun hl => by cases hl), ⟨_, hset _, hstanding⟩, hothers _⟩
  | @paused p p' before hpasses halone hlike htime hearly hfates =>
    cases hf
    have hflags := h.shared.agree.flags
    cases hready : p.isReady w with
    | false =>
      obtain rfl := hrest.of_not_ready hlike hready
      have hsame : items.set s.index (.paused p) = items := by
        obtain ⟨hlt, heq⟩ := List.getElem?_eq_some_iff.mp hb
        rw [← heq, List.set_getElem_self hlt]
      have hheard : T ++ (w.since w).map .wrote ++ (Focus.pause p).lastHeard = T := by
        rw [since_self]
        exact (List.append_nil _).trans (List.append_nil _)
      refine ⟨N, v, ?_⟩
      show Abreast s passes true (T ++ (w.since w).map .wrote ++ (Focus.pause p).lastHeard) w
        (items.set s.index (.paused p)) N F v
      rw [hsame, hheard]
      exact ⟨h.shared, (fun hl => by cases hl), ⟨_, hb, .paused before (Nat.le_succ_of_le hpasses)
        halone hlike htime (fun hl => by cases hl) hfates⟩, h.others⟩
    | true =>
      have hclears := clears_runBackground h.shared.foresees.fresh.2 h.shared.agree.spare.2
      have hsame : p'.isReady v.runBackground = p'.isReady v := by
        have hcleared : ∀ q ∈ N.units, w.isCancelled q.1 = v.runBackground.isCancelled q.2 :=
          fun q hq => (hflags q hq).trans (hclears.isCancelled q.2).symm
        rw [← hlike.isReady (w := { w with now := v.now }) hflags rfl,
          ← hlike.isReady (w := { w with now := v.now }) hcleared hclears.now.symm]
      have hlater : p'.isReady { v with now := w.now } = true := by
        rw [← hlike.isReady (v := { v with now := w.now }) hflags rfl, hready]
      have hwait := htime.waitFor (hearly rfl) hlater hsame hclears.background hclears.now
      obtain ⟨N', v', hshared, hstanding⟩ := (h.shared.clearRight hclears w.now).poll hfair hquiet
        hclears.background rfl (.enter hlike) hrest hk hroom hpasses
        (fun m => by rw [halone, if_neg (Nat.not_le_of_lt (hearly rfl)), hwait]) hfates
      exact ⟨N', v', hshared, (fun hl => by cases hl), ⟨_, hset _, hstanding⟩, hothers _⟩

/-- What is heard while the branch has its turn. -/
theorem Abreast.hears_own (hfair : s.IsFair) (h : Abreast s passes looked T w items N F v)
    (hb : items[s.index]? = some b) (hf : b.focus? = some f)
    (hrest : ComesToRest k ⟨w, [], f⟩ r) (hroom : r.world.requests ≤ s.permits)
    {done todo : List (Branch H (Paused H))} (hdone : done.length = s.index) (fuel : Nat) :
    ((⟨w, [], f⟩ : Machine H).under (turnLayers done todo)).hears s.index (k + fuel) =
      (w.since r.world).map .wrote ++ (r.under (turnLayers done todo)).hears s.index fuel := by
  have hlike : ∃ f', FocusLike s.own N f f' := by
    obtain ⟨b', hb', hstanding⟩ := h.standing
    obtain rfl : b' = b := Option.some.inj (hb'.symm.trans hb)
    cases hstanding with
    | finished verdict halone hfates => cases hf
    | idle hv hlooked hnow hfates htied =>
      cases hf
      exact ⟨_, .exec .null htied⟩
    | paused before hpasses halone hlike htime hearly hfates =>
      cases hf
      exact ⟨_, .enter hlike⟩
  obtain ⟨f', hlike⟩ := hlike
  have hm : MachineLike s.own s.permits ⟨N, w, { v with now := w.now }⟩ N ⟨w, [], f⟩
      ⟨{ v with now := w.now }, [], f'⟩ :=
    ⟨(h.shared.agree.at w.now).alike rfl, .nil, hlike⟩
  exact (hrest.hears_own hfair.own hm hroom hdone fuel).2

/-! ## Other changes -/

/-- Something is written down that is not a mark. -/
theorem Abreast.note (hfair : s.IsFair) (h : Abreast s passes looked T w items N F v) {e : Entry H}
    (hmark : e.mark? = none) : Abreast s passes looked T (w.record e) items N F v :=
  h.move hfair ((h.shared.theirs.alike rfl).note e hmark) rfl h.others

theorem branchesLike_of_focus {R : Realm H} {bs : List (Branch H (Paused H))}
    (h : ∀ b ∈ bs, ∀ f, b.focus? = some f → FocusLike R N f f) : BranchesLike R N 0 0 bs bs := by
  induction bs with
  | nil => exact .nil 0 0
  | cons b rest ih =>
    have hrest := ih fun c hc => h c (List.mem_cons_of_mem _ hc)
    have hfirst := h b (List.mem_cons_self ..)
    cases b with
    | finished => exact .finished hrest
    | idle steps =>
      cases hfirst _ rfl with
      | exec _ htied => exact .idle htied hrest
    | paused p =>
      cases hfirst _ rfl with
      | enter hp => exact .paused hp hrest

/-- Some of the others are dropped. -/
theorem Abreast.drop (hfair : s.IsFair) (h : Abreast s passes looked T w items N F v)
    {bs : List (Branch H (Paused H))}
    (hbs : ∀ b ∈ bs, ∀ f, b.focus? = some f → FocusLike s.theirs F f f) :
    Abreast s passes looked T (Paused.abandonAll bs w) items N F v :=
  h.move hfair ((h.shared.theirs.alike rfl).abandonAll (branchesLike_of_focus hbs)) rfl h.others

/-- A branch that has ended needs no more turn. -/
theorem Abreast.pass (h : Abreast s passes looked T w items N F v)
    (hb : items[s.index]? = some .finished) : Abreast s passes true T w items N F v := by
  obtain ⟨b', hb', hstanding⟩ := h.standing
  obtain rfl := Option.some.inj (hb'.symm.trans hb)
  cases hstanding with
  | finished verdict halone hfates =>
    refine ⟨h.shared, (fun hl => by cases hl), ⟨_, hb, .finished verdict (fun m hm => ?_) hfates⟩,
      h.others⟩
    refine halone m (Nat.le_trans (Nat.add_le_add_left ?_ passes) hm)
    cases looked <;> decide

/-- After a pass everything waits; the branch may have to wait longer. -/
theorem Abreast.wait (hfair : s.IsFair) (h : Abreast s passes true T w items N F v)
    (hlimit : w.now < s.limit) :
    Abreast s (passes + 1) false T
      (waitFor s.limit (.under joinFrame (.branches 0 items)) w) items N F v := by
  have hclears := clears_runBackground h.shared.foresees.fresh.1 h.shared.agree.spare.1
  have hmain : ∀ t, (∀ p p', items[s.index]? = some (.paused p) → PausedLike s.own N p p' →
      InTime s.limit p' v w.now → InTime s.limit p' v t) →
      Abreast s (passes + 1) false T { w.runBackground with now := t } items N F v := by
    intro t htime
    refine ⟨h.shared.clearLeft hfair hclears t, fun _ c hc => ?_, ?_, h.others⟩
    · rw [show ({ w.runBackground with now := t } : World H).background = [] from
        hclears.background] at hc
      cases hc
    · obtain ⟨b, hb, hstanding⟩ := h.standing
      refine ⟨b, hb, ?_⟩
      cases hstanding with
      | idle hv hlooked hnow hfates htied => cases hlooked
      | paused before hpasses halone hlike hbefore hearly hfates =>
        exact .paused before hpasses halone hlike (htime _ _ hb hlike hbefore)
          (fun _ => Nat.lt_of_le_of_lt hbefore.later hlimit) hfates
      | finished verdict halone hfates => exact .finished verdict halone hfates
  rcases waitFor_cases (p := .under joinFrame (.branches 0 items)) hclears.background hclears.now
    hlimit with ⟨-, heq⟩ | ⟨hready, t, heq, hlt, -, hleast⟩
  · have hworld : w.runBackground = { w.runBackground with now := w.now } := by
      rw [← hclears.now]
    rw [heq, hworld]
    exact hmain w.now fun _ _ _ _ htime => htime
  · rw [heq]
    refine hmain t fun p p' hp hlike htime => ?_
    have hin : .paused p ∈ items := List.mem_of_getElem? hp
    have hwaits : p.isReady w.runBackground = false :=
      isReady_of_anyReady (Bool.or_eq_false_iff.mp hready).2 hin
    have hcleared : ∀ q ∈ N.units, w.runBackground.isCancelled q.1 = v.isCancelled q.2 :=
      fun q hq => (hclears.isCancelled q.1).trans (h.shared.agree.flags q hq)
    refine htime.jump hlimit ?_ hlt fun d hd hlater => hleast d ?_ hlater
    · rw [← hlike.isReady (v := { v with now := w.now }) hcleared hclears.now]
      exact hwaits
    · rcases List.mem_cons.mp hd with rfl | hd
      · exact List.mem_cons_self ..
      · rw [← hlike.deadlines] at hd
        exact List.mem_cons_of_mem _ (deadlines_subset hin hd)

end Turns

end BootEngine.Work
