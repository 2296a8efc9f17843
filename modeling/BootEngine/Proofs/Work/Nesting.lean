import BootEngine.Proofs.Work.Ledger

/-!
# How scopes stand inside one another

A nested scope is covered by the work of its unit's outermost scope when it stands inside that work,
directly or in a branch. In a tidy run every nested scope of a unit is covered. When the work of an
outermost scope ends or is cut off, no scope that it covers is left; so in a tidy run with one
outermost scope no nested scope is left then.

A run uses a unit in order when a scope of the unit begins inside the work of the outermost one or
while no outermost one waits or works, and when programs leave it to the scopes to end the
transaction. Such a run stays tidy.

Contents:
* `Paused.loose`, `Machine.loose`: the number of nested scopes of a unit that nothing covers.
* `Paused.loose_eq_of_outers_eq_zero`, `looseIn_eq_of_outers_eq_zero`: without an outermost scope
  these are all nested scopes.
* `Machine.Nests`, `Machine.InOrder`: the scopes of a unit nest; a unit is used in order.
* `Machine.loose_step`: a step of a run leaves no more nested scopes uncovered than there were.
-/

namespace BootEngine.Work

open Transaction (Terminal Handle Context)

variable {H : Host}

/-! ## Counting scopes -/

/-- The number of outermost scopes of a unit that work. -/
def outers (u : UnitId) (s : Multiset (Item H)) : Nat := s.countP fun i => i.isOuter u

/-- The number of outermost scopes of a unit that wait or work. -/
def seats (u : UnitId) (s : Multiset (Item H)) : Nat := s.countP fun i => i.isSeat u

/-- The number of nested scopes of a unit. -/
def nesteds (u : UnitId) (s : Multiset (Item H)) : Nat := s.countP fun i => i.isNested u

section Counting

variable (u : UnitId) (i : Item H) (s t : Multiset (Item H))

@[simp] theorem outers_zero : outers u (0 : Multiset (Item H)) = 0 := rfl

@[simp] theorem outers_add : outers u (s + t) = outers u s + outers u t := Multiset.countP_add _ _ _

@[simp] theorem outers_cons : outers u (i ::ₘ s) = outers u s + if i.isOuter u then 1 else 0 :=
  Multiset.countP_cons _ _ _

@[simp] theorem outers_singleton : outers u {i} = if i.isOuter u then 1 else 0 := by
  rw [← Multiset.cons_zero, outers_cons, outers_zero, Nat.zero_add]

@[simp] theorem seats_zero : seats u (0 : Multiset (Item H)) = 0 := rfl

@[simp] theorem seats_cons : seats u (i ::ₘ s) = seats u s + if i.isSeat u then 1 else 0 :=
  Multiset.countP_cons _ _ _

@[simp] theorem nesteds_zero : nesteds u (0 : Multiset (Item H)) = 0 := rfl

@[simp] theorem nesteds_add : nesteds u (s + t) = nesteds u s + nesteds u t :=
  Multiset.countP_add _ _ _

@[simp] theorem nesteds_cons : nesteds u (i ::ₘ s) = nesteds u s + if i.isNested u then 1 else 0 :=
  Multiset.countP_cons _ _ _

@[simp] theorem nesteds_singleton : nesteds u {i} = if i.isNested u then 1 else 0 := by
  rw [← Multiset.cons_zero, nesteds_cons, nesteds_zero, Nat.zero_add]

theorem exists_outer_of_ne_zero {u : UnitId} {s : Multiset (Item H)} (ho : outers u s ≠ 0) :
    ∃ h t, s = .outer u h ::ₘ t := by
  obtain ⟨i, hi, hin⟩ := Multiset.countP_pos.mp (Nat.pos_of_ne_zero ho)
  obtain ⟨t, ht⟩ := Multiset.exists_cons_of_mem hi
  cases i with
  | outer v h =>
    obtain rfl : v = u := beq_iff_eq.mp hin
    exact ⟨h, t, ht⟩
  | _ => cases hin

theorem outers_le_seats : outers u s ≤ seats u s := by
  induction s using Multiset.induction with
  | empty => exact Nat.le_refl 0
  | cons i s ih =>
    have hi : (if i.isOuter u then 1 else 0) ≤ if i.isSeat u then 1 else 0 := by
      cases i <;> simp [Item.isOuter, Item.isSeat]
    rw [outers_cons, seats_cons]
    omega

end Counting

/-! ## Nested scopes that nothing covers -/

/-- What a frame makes of the nested scopes inside it that nothing covers: the work of the outermost
    scope covers them, and a nested scope is one more. -/
def Frame.expose (u : UnitId) (k : Nat) : Frame H → Nat
  | .nested v _ => if v = u then k + 1 else k
  | .outer v _ => if v = u then 0 else k
  | _ => k

mutual

/-- The number of nested scopes in a suspended computation that nothing covers. -/
def Paused.loose (u : UnitId) : Paused H → Nat
  | .under frame inner => frame.expose u (inner.loose u)
  | .branches _ items => Paused.looseAll u items
  | .sleeping _ => 0
  | .yielded => 0
  | .acquiring .. => 0
  | .closing .. => 0

/-- The number of nested scopes in branches that nothing covers. -/
def Paused.looseAll (u : UnitId) : List (Branch H (Paused H)) → Nat
  | [] => 0
  | .paused p :: rest => p.loose u + Paused.looseAll u rest
  | .idle _ :: rest => Paused.looseAll u rest
  | .finished :: rest => Paused.looseAll u rest

end

/-- What a layer makes of the nested scopes inside it that nothing covers. -/
def Layer.expose (u : UnitId) (k : Nat) : Layer H → Nat
  | .frame f => f.expose u k
  | .joining _ done todo => k + Paused.looseAll u done + Paused.looseAll u todo

/-- What layers make of the nested scopes inside them that nothing covers. -/
def looseIn (u : UnitId) : List (Layer H) → Nat → Nat
  | [], k => k
  | l :: rest, k => looseIn u rest (l.expose u k)

/-- The number of nested scopes in the focus that nothing covers. -/
def Focus.loose (u : UnitId) : Focus H → Nat
  | .enter p => p.loose u
  | .pause p => p.loose u
  | _ => 0

/-- The number of nested scopes of a unit in a run that nothing covers. -/
def Machine.loose (u : UnitId) (m : Machine H) : Nat := looseIn u m.layers (m.focus.loose u)

theorem Frame.expose_mono (u : UnitId) (f : Frame H) {j k : Nat} (h : j ≤ k) :
    f.expose u j ≤ f.expose u k := by
  cases f <;> simp only [Frame.expose] <;> first | exact h | (split <;> omega)

theorem Layer.expose_mono (u : UnitId) (l : Layer H) {j k : Nat} (h : j ≤ k) :
    l.expose u j ≤ l.expose u k := by
  cases l with
  | frame f => exact f.expose_mono u h
  | joining v done todo => simp only [Layer.expose]; omega

theorem looseIn_mono (u : UnitId) (layers : List (Layer H)) {j k : Nat} (h : j ≤ k) :
    looseIn u layers j ≤ looseIn u layers k := by
  induction layers generalizing j k with
  | nil => exact h
  | cons l rest ih => exact ih (l.expose_mono u h)

theorem Frame.expose_eq_of_outers_eq_zero {u : UnitId} {f : Frame H} (k : Nat)
    (h : outers u f.items = 0) : f.expose u k = k + nesteds u f.items := by
  cases f <;> simp [Frame.items, Frame.expose, Item.isOuter, Item.isNested] at h ⊢
  · split <;> rfl
  · exact fun hv => absurd hv h

mutual

/-- Where no outermost scope works, nothing covers a nested scope. -/
theorem Paused.loose_eq_of_outers_eq_zero {u : UnitId} (p : Paused H) (h : outers u p.items = 0) :
    p.loose u = nesteds u p.items := by
  match p with
  | .sleeping _ => simp [Paused.loose, Paused.items]
  | .yielded => simp [Paused.loose, Paused.items]
  | .acquiring .. => simp [Paused.loose, Paused.items, Item.isNested]
  | .closing _ _ call => cases call <;> simp [Paused.loose, Paused.items, Closing.item, Item.isNested]
  | .under frame inner =>
    rw [Paused.items, outers_add] at h
    have hf := frame.expose_eq_of_outers_eq_zero (inner.loose u) (u := u) (by omega)
    have hi := inner.loose_eq_of_outers_eq_zero (u := u) (by omega)
    rw [Paused.loose, Paused.items, nesteds_add, hf, hi, Nat.add_comm]
  | .branches _ items =>
    rw [Paused.items] at h ⊢
    exact Paused.looseAll_eq_of_outers_eq_zero items h

theorem Paused.looseAll_eq_of_outers_eq_zero {u : UnitId} (items : List (Branch H (Paused H)))
    (h : outers u (Paused.itemsAll items) = 0) :
    Paused.looseAll u items = nesteds u (Paused.itemsAll items) := by
  match items with
  | [] => rfl
  | .paused p :: rest =>
    rw [Paused.itemsAll, outers_add] at h
    rw [Paused.looseAll, Paused.itemsAll, nesteds_add,
      p.loose_eq_of_outers_eq_zero (by omega), Paused.looseAll_eq_of_outers_eq_zero rest (by omega)]
  | .idle _ :: rest => exact Paused.looseAll_eq_of_outers_eq_zero rest h
  | .finished :: rest => exact Paused.looseAll_eq_of_outers_eq_zero rest h

end

theorem Paused.looseAll_append (u : UnitId) (bs cs : List (Branch H (Paused H))) :
    Paused.looseAll u (bs ++ cs) = Paused.looseAll u bs + Paused.looseAll u cs := by
  induction bs with
  | nil => exact (Nat.zero_add _).symm
  | cons b rest ih =>
    cases b with
    | idle steps => exact ih
    | finished => exact ih
    | paused p =>
      rw [List.cons_append, Paused.looseAll, ih, Paused.looseAll, Nat.add_assoc]

theorem Paused.looseAll_reverse (u : UnitId) (bs : List (Branch H (Paused H))) :
    Paused.looseAll u bs.reverse = Paused.looseAll u bs := by
  induction bs with
  | nil => rfl
  | cons b rest ih =>
    have hb : Paused.looseAll u (b :: rest) = Paused.looseAll u [b] + Paused.looseAll u rest :=
      Paused.looseAll_append u [b] rest
    rw [List.reverse_cons, Paused.looseAll_append, ih, hb, Nat.add_comm]

/-- Branches that have not started hold nothing. -/
theorem Paused.itemsAll_map_idle (bs : List (List (Step H))) :
    Paused.itemsAll (bs.map Branch.idle) = 0 := by
  induction bs with
  | nil => rfl
  | cons b rest ih => exact ih

/-- Branches that have ended hold nothing. -/
theorem Paused.itemsAll_of_all_finished {bs : List (Branch H (Paused H))}
    (h : (bs.all fun | .finished => true | _ => false) = true) : Paused.itemsAll bs = 0 := by
  induction bs with
  | nil => rfl
  | cons b rest ih =>
    rw [List.all_cons, Bool.and_eq_true] at h
    cases b with
    | finished => exact ih h.2
    | idle steps => simp at h
    | paused p => simp at h

theorem looseIn_eq_of_outers_eq_zero {u : UnitId} (layers : List (Layer H)) (k : Nat)
    (h : outers u (Layer.itemsAll layers) = 0) :
    looseIn u layers k = k + nesteds u (Layer.itemsAll layers) := by
  induction layers generalizing k with
  | nil => rfl
  | cons l rest ih =>
    rw [Layer.itemsAll, outers_add] at h
    have hl : l.expose u k = k + nesteds u l.items := by
      cases l with
      | frame f => exact f.expose_eq_of_outers_eq_zero k (Nat.eq_zero_of_add_eq_zero_right h)
      | joining v done todo =>
        have hs : outers u (Paused.itemsAll done) + outers u (Paused.itemsAll todo) = 0 := by
          rw [← outers_add]; exact (by omega : outers u (Layer.items (.joining v done todo)) = 0)
        rw [Layer.expose, Layer.items, nesteds_add,
          Paused.looseAll_eq_of_outers_eq_zero done (by omega),
          Paused.looseAll_eq_of_outers_eq_zero todo (by omega), Nat.add_assoc]
    rw [looseIn, ih _ (by omega), Layer.itemsAll, nesteds_add, hl, Nat.add_assoc]

/-- Under the work of the outermost scope it does not matter what stands inside. -/
theorem looseIn_of_mem_outer {u : UnitId} {h : Handle} {layers : List (Layer H)}
    (hm : .frame (.outer u h) ∈ layers) (j k : Nat) : looseIn u layers j = looseIn u layers k := by
  induction layers generalizing j k with
  | nil => simp at hm
  | cons l rest ih =>
    rcases List.mem_cons.mp hm with rfl | hr
    · simp [looseIn, Layer.expose, Frame.expose]
    · exact ih hr _ _

/-! ## Using a unit in order -/

/-- The unit on which a step opens a scope. A fresh unit gets the next number. -/
def Step.opensOn? (w : World H) (u : UnitId) : Step H → Option UnitId
  | .scope .here .. => some u
  | .scope .fresh .. => some w.units.length
  | .within .here _ => some u
  | .within .fresh _ => some w.units.length
  | .timeout .. => some u
  | .catchPanic _ => some u
  | _ => none

/-- The unit on which the next step of a run opens a scope. -/
def Machine.opensOn? (m : Machine H) : Option UnitId :=
  match m.focus with
  | .exec u _ (s :: _) => s.opensOn? m.world u
  | _ => none

/-- The unit whose transaction the next step of a run ends by itself. -/
def Machine.finishesOn? (m : Machine H) : Option UnitId :=
  match m.focus with
  | .exec u _ (.finish _ :: _) => some u
  | _ => none

/-- The next step of a run stands inside the work of an outermost scope of a unit. -/
def Machine.IsInside (u : UnitId) (m : Machine H) : Prop :=
  ∃ h, Layer.frame (.outer u h) ∈ m.layers

/-- The scopes of a unit nest: the next step opens one inside the work of the outermost one, or
    while no outermost one waits or works. -/
def Machine.Nests (u : UnitId) (m : Machine H) : Prop :=
  m.opensOn? = some u → m.IsInside u ∨ seats u m.items = 0

/-- The next step of a run uses a unit in order: a scope of the unit begins inside the work of the
    outermost one, or while no outermost one waits or works, and the program does not end the
    transaction of the unit itself. -/
structure Machine.InOrder (u : UnitId) (m : Machine H) : Prop where
  opens : m.opensOn? = some u → m.IsInside u ∨ seats u m.items = 0
  finishes : m.finishesOn? ≠ some u

/-! ## A step covers what it opens -/

theorem World.context?_addUnit (w : World H) (u : UnitId) :
    w.addUnit.2.context? u = w.context? u :=
  congrFun (congrArg Ledger.contexts (w.ledger_addUnit 0)) u

section Step

variable (u : UnitId) (w : World H) (layers : List (Layer H))

theorem loose_nextEffect (held : List Handle) (v : UnitId) (h : Handle) (index : Nat)
    (effects : List (List (Step H))) (value : Value) :
    (nextEffect w layers held v h index effects value).loose u = looseIn u layers 0 := by
  cases effects <;> rfl

theorem loose_settle (failure : Option String) (call : Closing H) :
    (settle w layers failure call).loose u = looseIn u layers 0 := by
  cases call with
  | commit held v h effects value =>
    cases failure with
    | none => exact loose_nextEffect u _ layers held v h 0 effects value
    | some reason => rfl
  | rollback held v h outcome => rfl
  | direct v t h value rest => rfl

theorem loose_startClosing (call : Closing H) :
    (startClosing w layers call).loose u = looseIn u layers 0 := by
  unfold startClosing
  dsimp only
  split
  · exact loose_settle u _ layers _ call
  · rfl

theorem loose_closeScope (v : UnitId) (h : Handle) (outcome : Outcome H) :
    (closeScope w layers v h outcome).loose u = looseIn u layers 0 := by
  unfold closeScope
  split
  · rfl
  · cases outcome with
    | error e => exact loose_startClosing u _ layers _
    | ok value =>
      dsimp only
      split
      · exact loose_startClosing u _ layers _
      · split <;> exact loose_startClosing u _ layers _

theorem loose_openScope (v : UnitId) (h : Handle) (body : List (Step H)) :
    (openScope w layers v h body).loose u = looseIn u layers 0 := by
  show looseIn u layers (if v = u then 0 else 0) = _
  rw [ite_self]

theorem loose_tryAcquire (v : UnitId) (body : List (Step H)) (limit : Option (Nat × Nat))
    (wait : Acquiring) : (tryAcquire w layers v body limit wait).loose u = looseIn u layers 0 := by
  unfold tryAcquire
  split
  · cases wait with
    | ticket number => exact loose_openScope u _ layers v _ body
    | answer due reply =>
      cases reply with
      | ok h => exact loose_openScope u _ layers v h body
      | error reason => rfl
  · split
    · split <;> rfl
    · rfl

theorem loose_beginOutermost (v : UnitId) (body : List (Step H)) :
    (beginOutermost w layers v body).loose u = looseIn u layers 0 := by
  unfold beginOutermost
  dsimp only
  split
  · exact loose_openScope u _ layers v _ body
  · exact loose_tryAcquire u _ layers v body _ _
  · exact loose_tryAcquire u _ layers v body _ _

theorem loose_enterScope {v : UnitId} (body : List (Step H))
    (hn : v = u → w.context? v ≠ none → ∃ h, Layer.frame (.outer u h) ∈ layers) :
    (enterScope w layers v body).loose u = looseIn u layers 0 := by
  unfold enterScope
  split
  · rfl
  · split
    · next c hc =>
      show looseIn u layers (if v = u then 0 + 1 else 0) = _
      split
      · next hv =>
        obtain ⟨h, hm⟩ := hn hv (by rw [hc]; simp)
        exact looseIn_of_mem_outer hm _ _
      · rfl
    · exact loose_beginOutermost u w layers v body

theorem loose_visit (v : UnitId) (done todo : List (Branch H (Paused H))) :
    (visit w layers v done todo).loose u =
      looseIn u layers (Paused.looseAll u done + Paused.looseAll u todo) := by
  induction todo generalizing done with
  | nil =>
    unfold visit
    split
    · next hall =>
      have hzero : Paused.looseAll u done = 0 := by
        have hnone := Paused.itemsAll_of_all_finished hall
        rw [Paused.looseAll_eq_of_outers_eq_zero done (by rw [hnone]; rfl), hnone]
        rfl
      rw [hzero]
      rfl
    · exact congrArg (looseIn u layers) (Paused.looseAll_reverse u done)
  | cons b rest ih =>
    cases b with
    | finished => exact ih (.finished :: done)
    | idle steps =>
      show looseIn u layers (0 + Paused.looseAll u done + Paused.looseAll u rest) = _
      rw [Nat.zero_add]
      rfl
    | paused p =>
      show looseIn u layers (p.loose u + Paused.looseAll u done + Paused.looseAll u rest) = _
      rw [Nat.add_comm (p.loose u), Nat.add_assoc]
      rfl

theorem loose_execStep (v : UnitId) (value : Value) (rest : List (Step H)) (s : Step H)
    (hn : s.opensOn? w v = some u → w.context? u ≠ none →
      ∃ h, Layer.frame (.outer u h) ∈ layers) :
    (execStep w layers v value rest s).loose u = looseIn u layers 0 := by
  cases s with
  | perform action =>
    simp only [execStep]
    split <;> rfl
  | note v => rfl
  | announce id => rfl
  | probe what => rfl
  | give v => rfl
  | fail fault => rfl
  | panic => rfl
  | sleep ms =>
    simp only [execStep]
    split <;> rfl
  | yield => rfl
  | cancel unit => cases unit <;> rfl
  | armCommitFailure => rfl
  | finish t =>
    simp only [execStep]
    split
    · rfl
    · exact loose_startClosing u _ layers _
  | scope place report body =>
    cases place with
    | here =>
      refine loose_enterScope u w (_ :: layers) body fun hv hc => ?_
      obtain ⟨h, hm⟩ := hn (congrArg some hv) (hv ▸ hc)
      exact ⟨h, List.mem_cons_of_mem _ hm⟩
    | fresh =>
      refine loose_enterScope u w.addUnit.2 (_ :: layers) body fun hv hc => ?_
      obtain ⟨h, hm⟩ := hn (congrArg some hv) (hv ▸ w.context?_addUnit _ ▸ hc)
      exact ⟨h, List.mem_cons_of_mem _ hm⟩
  | within place body =>
    cases place with
    | here => exact loose_enterScope u w layers body fun hv hc => hn (congrArg some hv) (hv ▸ hc)
    | fresh =>
      exact loose_enterScope u w.addUnit.2 layers body fun hv hc =>
        hn (congrArg some hv) (hv ▸ w.context?_addUnit _ ▸ hc)
  | timeout ms body =>
    refine loose_enterScope u w (_ :: layers) body fun hv hc => ?_
    obtain ⟨h, hm⟩ := hn (congrArg some hv) (hv ▸ hc)
    exact ⟨h, List.mem_cons_of_mem _ hm⟩
  | catchPanic body =>
    refine loose_enterScope u w (_ :: layers) body fun hv hc => ?_
    obtain ⟨h, hm⟩ := hn (congrArg some hv) (hv ▸ hc)
    exact ⟨h, List.mem_cons_of_mem _ hm⟩
  | defer strict effect =>
    simp only [execStep]
    split
    · rfl
    · split <;> rfl
  | onUnit name body => rfl
  | iterate count body => cases count <;> rfl
  | join branches =>
    have hnone := Paused.itemsAll_map_idle branches
    show (visit w (_ :: layers) v [] (branches.map .idle)).loose u = _
    rw [loose_visit, Paused.looseAll_eq_of_outers_eq_zero (branches.map .idle) (by rw [hnone]; rfl),
      hnone]
    rfl

end Step

/-- A step of a run leaves no more nested scopes uncovered than there were, if a nested scope of the
    unit begins only inside the work of the outermost one. -/
theorem Machine.loose_step {u : UnitId} (m : Machine H)
    (hn : m.opensOn? = some u → m.world.context? u ≠ none → m.IsInside u) :
    m.step.loose u ≤ m.loose u := by
  obtain ⟨w, layers, focus⟩ := m
  cases focus with
  | enter p =>
    cases p with
    | sleeping due =>
      show (enter w layers (.sleeping due)).loose u ≤ looseIn u layers 0
      simp only [enter]
      split <;> exact Nat.le_refl _
    | yielded => exact Nat.le_refl _
    | acquiring v body limit wait =>
      show (enter w layers (.acquiring v body limit wait)).loose u ≤ looseIn u layers 0
      simp only [enter]
      split
      · exact Nat.le_refl _
      · exact Nat.le_of_eq (loose_tryAcquire u w layers v body limit wait)
    | closing due failure call =>
      show (enter w layers (.closing due failure call)).loose u ≤ looseIn u layers 0
      simp only [enter]
      split
      · exact Nat.le_of_eq (loose_settle u w layers failure call)
      · exact Nat.le_refl _
    | under frame inner =>
      show (enter w layers (.under frame inner)).loose u ≤
        looseIn u layers (frame.expose u (inner.loose u))
      simp only [enter]
      split
      · exact looseIn_mono u layers (frame.expose_mono u (Nat.zero_le _))
      · exact Nat.le_refl _
    | branches v items =>
      refine Nat.le_of_eq ((loose_visit u w layers v [] items).trans ?_)
      exact congrArg (looseIn u layers) (Nat.zero_add _)
  | exec v value steps =>
    cases steps with
    | nil => exact Nat.le_refl _
    | cons s rest => exact Nat.le_of_eq (loose_execStep u w layers v value rest s hn)
  | finish outcome =>
    cases layers with
    | nil => exact Nat.le_refl _
    | cons l layers =>
      cases l with
      | joining v done todo =>
        refine Nat.le_of_eq ((loose_visit u _ layers v (.finished :: done) todo).trans ?_)
        exact congrArg (fun k => looseIn u layers (k + _)) (Nat.zero_add _).symm
      | frame f =>
        cases f with
        | after v how value rest =>
          show (resume w layers outcome (.after v how value rest)).loose u ≤ looseIn u layers 0
          simp only [resume]
          split <;> exact Nat.le_refl _
        | nested v h => exact looseIn_mono u layers (Nat.zero_le _)
        | outer v h =>
          exact (loose_closeScope u w layers v h outcome).trans_le
            (looseIn_mono u layers (Nat.zero_le _))
        | effects held v h index rest value =>
          exact Nat.le_of_eq (loose_nextEffect u _ layers held v h (index + 1) rest value)
        | timeout v due value rest => exact Nat.le_refl _
        | catchPanic v value rest => exact Nat.le_refl _
  | unwind =>
    cases layers with
    | nil => exact Nat.le_refl _
    | cons l layers =>
      cases l with
      | joining v done todo => exact looseIn_mono u layers (Nat.zero_le _)
      | frame f => cases f <;> exact looseIn_mono u layers (Nat.zero_le _)
  | pause p =>
    cases layers with
    | nil => exact Nat.le_refl _
    | cons l layers =>
      cases l with
      | joining v done todo =>
        refine Nat.le_of_eq ((loose_visit u w layers v (.paused p :: done) todo).trans ?_)
        rfl
      | frame f =>
        cases f with
        | timeout v due value rest =>
          show (suspend w layers p (.timeout v due value rest)).loose u ≤
            looseIn u layers (p.loose u)
          simp only [suspend]
          split
          · exact looseIn_mono u layers (Nat.zero_le _)
          · exact Nat.le_refl _
        | after v how value rest => exact Nat.le_refl _
        | nested v h => exact Nat.le_refl _
        | outer v h => exact Nat.le_refl _
        | effects held v h index rest value => exact Nat.le_refl _
        | catchPanic v value rest => exact Nat.le_refl _

end BootEngine.Work
