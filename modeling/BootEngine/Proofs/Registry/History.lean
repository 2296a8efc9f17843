import BootEngine.Proofs.Registry.Lookup
import BootEngine.Registry.Catalogue

/-!
# The history of a registry

Whatever is put into an open registry and asked of it, in any order: it holds what it has taken in,
under different keys and in the order in which it came. A key is taken by the first component that
comes with it, and whoever comes later is refused and changes nothing. Every question is answered
from what is held. It makes no difference whether the registry is one list or a catalogue of a
table and a list of keys; the two parts of a catalogue stay in step.

Contents:
* `Operation`, `Reply`, `history`, `accepted`: histories, and what has been taken in.
* `Catalogue.Holds`, `Catalogue.Takes`, `Tells`: what a registry that holds something is like.
* `Registry.tells`: the answers of a registry.
* `Registry.entries_history`: what a registry holds in the end.
* `Catalogue.Holds.inserted`, `Catalogue.Holds.takes`: insertions into a catalogue.
* `Catalogue.Mirrors`, `Catalogue.Mirrors.perform`: a catalogue beside a registry.
* `history_holds`: histories.
-/

namespace BootEngine

open Component (Kind Key Instance)

/-! ## Histories -/

/-- Something that is done with a registry. -/
inductive Operation where
  | insert (key : Key) (item : Instance)
  | ask (query : Query)

/-- What comes of an operation. -/
inductive Reply where
  | stored
  | refused (e : DependencyError)
  | answered (a : Answer)

/-- A registry without components that is open. -/
def Registry.opened (source : Option String) (coordinator : Option Transaction.Coordinator) :
    Registry :=
  ⟨[], source, coordinator, false⟩

/-- A catalogue without components that is open. -/
def Catalogue.opened (source : Option String) (coordinator : Option Transaction.Coordinator) :
    Catalogue :=
  ⟨∅, [], source, coordinator, false⟩

/-- An operation on a registry. A component that is refused is not put in. -/
def Registry.perform (r : Registry) : Operation → Reply × Registry
  | .insert key item =>
    match r.insert key item with
    | .ok s => (.stored, s)
    | .error e => (.refused e, r)
  | .ask query => (.answered (r.answer query), r)

/-- An operation on a catalogue. -/
def Catalogue.perform (c : Catalogue) : Operation → Reply × Catalogue
  | .insert key item =>
    match c.insert key item with
    | (.ok _, d) => (.stored, d)
    | (.error e, d) => (.refused e, d)
  | .ask query => (.answered (c.answer query), c)

/-- Operations one after another with what comes of each, and what they lead to. -/
def history {σ : Type} (perform : σ → Operation → Reply × σ) :
    σ → List Operation → List (Operation × Reply) × σ
  | s, [] => ([], s)
  | s, op :: ops =>
    let done := perform s op
    let later := history perform done.2 ops
    ((op, done.1) :: later.1, later.2)

/-- The components that have been put in, in the order in which they came. -/
def accepted (log : List (Operation × Reply)) : List (Key × Instance) :=
  log.filterMap fun
    | (.insert key item, .stored) => some (key, item)
    | _ => none

/-! ## What a registry is like -/

/-- Both parts of an open catalogue have what is held: the list has the keys, each once and in their
    order, and the table has under each key its component and nothing else. -/
structure Catalogue.Holds (c : Catalogue) (held : List (Key × Instance)) : Prop where
  order : c.order = held.map Prod.fst
  nodup : c.order.Nodup
  table : ∀ key item, c.table[key]? = some item ↔ (key, item) ∈ held
  size : c.size = held.length
  opened : c.closed = false

/-- A catalogue takes in a component if its key is not in use, and refuses it otherwise; what is
    refused changes nothing. -/
structure Catalogue.Takes (c : Catalogue) (held : List (Key × Instance)) : Prop where
  stored_iff : ∀ key item, (c.perform (.insert key item)).1 = .stored ↔ key ∉ held.map Prod.fst
  refused : ∀ key item, key ∈ held.map Prod.fst →
    c.perform (.insert key item) = (.refused (.duplicate key.text), c)

/-- Questions are answered from what is held. -/
structure Tells (answer : Query → Answer) (held : List (Key × Instance)) : Prop where
  found : ∀ key item, (key, item) ∈ held → answer (.get key.kind (some key.name)) = .found item
  missing : ∀ key, key ∉ held.map Prod.fst →
    answer (.get key.kind (some key.name)) = .failed (.notRegistered key.text)
  nobody : ∀ kind, (∀ entry ∈ held, entry.1.kind ≠ kind) →
    answer (.get kind none) = .failed (.notRegistered (Component.requestText kind none))
  only : ∀ key item, (key, item) ∈ held → (∀ entry ∈ held, entry.1.kind = key.kind →
    entry = (key, item)) → answer (.get key.kind none) = .found item
  several : ∀ kind, 2 ≤ (held.filter (·.1.kind == kind)).length → answer (.get kind none) =
    .failed (.ambiguous kind.name ((held.filter (·.1.kind == kind)).map (·.1.name)))
  all : ∀ kind, answer (.all kind) = .listed (held.filter (·.1.kind == kind))
  contains : ∀ key, answer (.contains key) = .told (decide (key ∈ held.map Prod.fst))
  keys : answer .keys = .keys (held.map Prod.fst)

/-! ## The answers of a registry -/

namespace Registry

variable {r : Registry}

theorem insert_of_mem {key : Key} (hin : key ∈ r.entries.map Prod.fst) (item : Instance) :
    r.insert key item = .error (.duplicate key.text) := by
  cases hfind : r.find? key with
  | none => exact absurd hin (find?_eq_none_iff.mp hfind)
  | some other => simp only [insert, hfind]

theorem insert_of_notMem {key : Key} (hout : key ∉ r.entries.map Prod.fst) (item : Instance) :
    r.insert key item = .ok { r with entries := r.entries ++ [(key, item)] } := by
  simp only [insert, find?_eq_none_iff.mpr hout]

/-- The components of a kind are listed as they are held. -/
theorem all_eq (hopen : r.closed = false) (hnodup : (r.entries.map Prod.fst).Nodup) (kind : Kind) :
    r.all kind = r.ofKind kind := by
  have hkeys : r.keys.filter (·.kind == kind) = (r.ofKind kind).map Prod.fst := by
    simp only [keys, hopen, Bool.false_eq_true, if_false, ofKind, List.filter_map]
    rfl
  have hlook : ∀ entry ∈ r.ofKind kind,
      ((r.get entry.1.kind (some entry.1.name)).toOption.map fun item => (entry.1, item)) =
        some entry := by
    rintro ⟨key, item⟩ hentry
    have hfind := find?_eq_some_of_mem hnodup (List.mem_filter.mp hentry).1
    simp only [get, hopen, Bool.false_eq_true, if_false, hfind]
    rfl
  calc r.all kind
      = (r.ofKind kind).filterMap (fun entry =>
          (r.get entry.1.kind (some entry.1.name)).toOption.map fun item => (entry.1, item)) := by
        rw [all, hkeys, List.filterMap_map]
        apply List.filterMap_congr
        intro entry hentry
        have hkind : entry.1.kind = kind := by simpa using (List.mem_filter.mp hentry).2
        simp [hkind]
    _ = (r.ofKind kind).filterMap some := List.filterMap_congr hlook
    _ = r.ofKind kind := List.filterMap_some

/-- Where several components have a kind, none of them is chosen. -/
theorem get_eq_ambiguous (hopen : r.closed = false) {kind : Kind}
    (hmany : 2 ≤ (r.ofKind kind).length) :
    r.get kind none = .error (.ambiguous kind.name ((r.ofKind kind).map (·.1.name))) := by
  simp only [get, hopen, Bool.false_eq_true, if_false]
  split
  · next hnil => simp [hnil] at hmany
  · next entry hone => simp [hone] at hmany
  · rfl

theorem isSome_find? (key : Key) :
    (r.find? key).isSome = decide (key ∈ r.entries.map Prod.fst) := by
  cases hfind : r.find? key with
  | none => simpa using find?_eq_none_iff.mp hfind
  | some item =>
    by_contra hno
    have hout : key ∉ r.entries.map Prod.fst := by simpa using hno
    rw [find?_eq_none_iff.mpr hout] at hfind
    cases hfind

/-- An open registry in which no key comes twice answers from what it holds. -/
theorem tells (hopen : r.closed = false) (hnodup : (r.entries.map Prod.fst).Nodup) :
    Tells r.answer r.entries := by
  constructor
  case found =>
    intro key item hin
    have hfind := find?_eq_some_of_mem hnodup hin
    simp only [answer, get, hopen, Bool.false_eq_true, if_false, hfind]
  case missing =>
    intro key hout
    have hfind := find?_eq_none_iff.mpr hout
    simp only [answer, get, hopen, Bool.false_eq_true, if_false, hfind]
  case nobody =>
    intro kind hnone
    have hnil : r.ofKind kind = [] := by
      simpa [ofKind, List.filter_eq_nil_iff] using hnone
    simp only [answer, get, hopen, Bool.false_eq_true, if_false, hnil]
  case only =>
    intro key item hin honly
    have hget : r.get key.kind none = .ok item := by
      have hadmits : (Component.Need.any key.kind).admits key = true :=
        (Component.Need.admits_any _ _).mpr rfl
      refine get_of_admits hopen hnodup hin hadmits ?_
      intro other hother hadmits
      obtain ⟨entry, hentry, rfl⟩ := List.mem_map.mp hother
      rw [honly entry hentry ((Component.Need.admits_any _ _).mp hadmits)]
    simp only [answer, hget]
  case several =>
    intro kind hmany
    simp only [answer, get_eq_ambiguous hopen hmany]
    rfl
  case all =>
    intro kind
    rw [answer, all_eq hopen hnodup]
    rfl
  case contains =>
    intro key
    rw [answer, Registry.contains, hopen, Bool.not_false, Bool.true_and, isSome_find?]
  case keys => simp only [answer, Registry.keys, hopen, Bool.false_eq_true, if_false]

/-- A registry has what it has taken in behind what it had before. -/
theorem entries_perform (r : Registry) (op : Operation) :
    (r.perform op).2.entries = r.entries ++ accepted [(op, (r.perform op).1)] := by
  cases op with
  | ask query => simp [perform, accepted]
  | insert key item =>
    by_cases hin : key ∈ r.entries.map Prod.fst
    · simp [perform, insert_of_mem hin, accepted]
    · simp [perform, insert_of_notMem hin, accepted]

theorem entries_history (r : Registry) (ops : List Operation) :
    (history perform r ops).2.entries = r.entries ++ accepted (history perform r ops).1 := by
  induction ops generalizing r with
  | nil => simp [history, accepted]
  | cons op ops ih =>
    have hcons : accepted (history perform r (op :: ops)).1 =
        accepted [(op, (r.perform op).1)] ++ accepted (history perform (r.perform op).2 ops).1 :=
      List.filterMap_append (l := [_])
    rw [hcons, ← List.append_assoc, ← entries_perform]
    exact ih (r.perform op).2

end Registry

/-! ## Insertions into a catalogue -/

namespace Catalogue

variable {c : Catalogue} {held : List (Key × Instance)} {key : Key}

/-- The table has the keys of the list. -/
theorem Holds.contains_table (h : c.Holds held) :
    c.table.contains key = true ↔ key ∈ held.map Prod.fst := by
  rw [Std.HashMap.contains_eq_isSome_getElem?, Option.isSome_iff_exists, List.mem_map]
  constructor
  · rintro ⟨item, hitem⟩
    exact ⟨(key, item), (h.table key item).mp hitem, rfl⟩
  · rintro ⟨⟨_, item⟩, hin, rfl⟩
    exact ⟨item, (h.table _ item).mpr hin⟩

/-- A component whose key is in use is refused. -/
theorem Holds.insert_of_mem (h : c.Holds held) (hin : key ∈ held.map Prod.fst) (item : Instance) :
    c.insert key item = (.error (.duplicate key.text), c) := by
  rw [insert, if_pos (h.contains_table.mpr hin)]

/-- A component whose key is not in use gets into both parts. -/
theorem Holds.insert_of_notMem (h : c.Holds held) (hout : key ∉ held.map Prod.fst)
    (item : Instance) :
    c.insert key item =
      (.ok (), { c with table := c.table.insert key item, order := c.order ++ [key] }) := by
  rw [insert, if_neg fun hin => hout (h.contains_table.mp hin)]

/-- Both parts are in step when a component has got into them. -/
theorem Holds.inserted (h : c.Holds held) (hout : key ∉ held.map Prod.fst) (item : Instance) :
    { c with table := c.table.insert key item, order := c.order ++ [key] : Catalogue }.Holds
      (held ++ [(key, item)]) := by
  refine ⟨?_, ?_, ?_, ?_, h.opened⟩
  · show c.order ++ [key] = _
    rw [h.order, List.map_append, List.map_singleton]
  · show (c.order ++ [key]).Nodup
    rw [List.nodup_append]
    refine ⟨h.nodup, List.nodup_singleton key, ?_⟩
    rintro other hother _ hself rfl
    rw [h.order, List.mem_singleton.mp hself] at hother
    exact hout hother
  · intro other value
    show (c.table.insert key item)[other]? = some value ↔ _
    rw [Std.HashMap.getElem?_insert, List.mem_append, List.mem_singleton, Prod.mk.injEq]
    by_cases he : key = other
    · subst he
      have hfresh : (key, value) ∉ held := fun hin => hout (List.mem_map_of_mem hin)
      simp [hfresh, eq_comm]
    · simp [he, Ne.symm he, h.table]
  · show (c.table.insert key item).size = _
    have hno : key ∉ c.table := fun hin => hout (h.contains_table.mp hin)
    rw [Std.HashMap.size_insert, if_neg hno]
    have hsize : c.table.size = held.length := h.size
    simp [hsize]

/-- A catalogue takes in what comes under a new key. -/
theorem Holds.takes (h : c.Holds held) : c.Takes held := by
  have hrefused : ∀ key item, key ∈ held.map Prod.fst →
      c.perform (.insert key item) = (.refused (.duplicate key.text), c) := by
    intro key item hin
    simp only [Catalogue.perform, h.insert_of_mem hin]
  refine ⟨fun key item => ⟨fun hstored hin => ?_, fun hout => ?_⟩, hrefused⟩
  · rw [hrefused key item hin] at hstored
    cases hstored
  · simp only [Catalogue.perform, h.insert_of_notMem hout]

end Catalogue

/-! ## A catalogue beside a registry -/

/-- A catalogue and a registry hold the same. -/
structure Catalogue.Mirrors (c : Catalogue) (r : Registry) : Prop where
  holds : c.Holds r.entries
  opened : r.closed = false
  dataSource : c.dataSource = r.dataSource
  coordinator : c.coordinator = r.coordinator

theorem Catalogue.mirrors_opened (source : Option String)
    (coordinator : Option Transaction.Coordinator) :
    (Catalogue.opened source coordinator).Mirrors (.opened source coordinator) := by
  refine ⟨⟨rfl, List.nodup_nil, ?_, ?_, rfl⟩, rfl, rfl, rfl⟩
  · simp [opened, Registry.opened]
  · simp [size, opened, Registry.opened]

namespace Catalogue.Mirrors

variable {c : Catalogue} {r : Registry}

theorem nodup (h : c.Mirrors r) : (r.entries.map Prod.fst).Nodup := by
  rw [← h.holds.order]
  exact h.holds.nodup

/-- What the table has under a key the registry finds under it. -/
theorem table_eq (h : c.Mirrors r) (key : Key) : c.table[key]? = r.find? key := by
  apply Option.ext
  intro item
  rw [h.holds.table]
  constructor
  · exact Registry.find?_eq_some_of_mem h.nodup
  · intro hfind
    obtain ⟨before, after, hsplit, -⟩ := List.lookup_eq_some_iff.mp hfind
    rw [hsplit]
    simp

theorem get_eq (h : c.Mirrors r) (kind : Kind) (name : Option String) :
    c.get kind name = r.get kind name := by
  cases name with
  | some name =>
    cases hfind : r.find? ⟨kind, name⟩ <;>
      simp [Catalogue.get, Registry.get, h.holds.opened, h.opened, h.table_eq, hfind]
  | none =>
    have horder : c.order.filter (·.kind == kind) = (r.ofKind kind).map Prod.fst := by
      rw [h.holds.order, List.filter_map]
      rfl
    simp only [Catalogue.get, Registry.get, h.holds.opened, h.opened, Bool.false_eq_true, if_false,
      horder]
    rcases hkind : r.ofKind kind with _ | ⟨⟨key, item⟩, _ | ⟨other, rest⟩⟩
    · rfl
    · have hin : (key, item) ∈ r.entries := by
        have hmem : (key, item) ∈ r.ofKind kind := by simp [hkind]
        exact (List.mem_filter.mp hmem).1
      simp [h.table_eq, Registry.find?_eq_some_of_mem h.nodup hin]
    · simp

theorem answer_eq (h : c.Mirrors r) (query : Query) : c.answer query = r.answer query := by
  have hkeys : c.keys = r.keys := by
    rw [Catalogue.keys, Registry.keys, h.holds.opened, h.opened, h.holds.order]
  cases query with
  | get kind name =>
    rw [Catalogue.answer, h.get_eq]
    rfl
  | describe kind name =>
    rw [Catalogue.answer, h.get_eq]
    rfl
  | typed kind name typeName =>
    rw [Catalogue.answer, Catalogue.typed, h.get_eq]
    rfl
  | all kind =>
    simp only [Catalogue.answer, Registry.answer, Catalogue.all, Registry.all, h.get_eq, hkeys]
  | contains key =>
    simp only [Catalogue.answer, Registry.answer, Catalogue.contains, Registry.contains,
      h.holds.opened, h.opened, Std.HashMap.contains_eq_isSome_getElem?, h.table_eq]
  | keys => simp only [Catalogue.answer, Registry.answer, hkeys]
  | dataSource => simp only [Catalogue.answer, Registry.answer, h.dataSource]
  | coordinator => simp only [Catalogue.answer, Registry.answer, h.coordinator]

/-- The same operation has the same reply of both, and they go on to hold the same. -/
theorem perform (h : c.Mirrors r) (op : Operation) :
    (c.perform op).1 = (r.perform op).1 ∧ (c.perform op).2.Mirrors (r.perform op).2 := by
  cases op with
  | ask query => exact ⟨by simp only [Catalogue.perform, Registry.perform, h.answer_eq], h⟩
  | insert key item =>
    by_cases hin : key ∈ r.entries.map Prod.fst
    · simp only [Catalogue.perform, Registry.perform, h.holds.insert_of_mem hin,
        Registry.insert_of_mem hin]
      exact ⟨trivial, h⟩
    · simp only [Catalogue.perform, Registry.perform, h.holds.insert_of_notMem hin,
        Registry.insert_of_notMem hin]
      exact ⟨trivial, h.holds.inserted hin item, h.opened, h.dataSource, h.coordinator⟩

theorem history (h : c.Mirrors r) (ops : List Operation) :
    (history Catalogue.perform c ops).1 = (history Registry.perform r ops).1 ∧
      (history Catalogue.perform c ops).2.Mirrors (history Registry.perform r ops).2 := by
  induction ops generalizing c r with
  | nil => exact ⟨rfl, h⟩
  | cons op ops ih =>
    obtain ⟨hreply, hnext⟩ := h.perform op
    obtain ⟨hlog, hend⟩ := ih hnext
    refine ⟨?_, hend⟩
    simp only [BootEngine.history, hreply, hlog]

end Catalogue.Mirrors

/-! ## Histories -/

/-- After every history of insertions and questions, in any order, a registry holds what it has
    taken in, takes in just what comes under a new key, and answers from what it holds; a catalogue
    has the same history, and its table and its list are in step. -/
theorem history_holds (source : Option String) (coordinator : Option Transaction.Coordinator)
    (ops : List Operation) :
    let c := history Catalogue.perform (.opened source coordinator) ops
    let r := history Registry.perform (.opened source coordinator) ops
    (c.2.Holds (accepted c.1) ∧ c.2.Takes (accepted c.1) ∧ Tells c.2.answer (accepted c.1)) ∧
      r.1 = c.1 ∧ r.2.entries = accepted c.1 ∧ r.2.answer = c.2.answer := by
  intro c r
  obtain ⟨hlog, hmirrors⟩ := (Catalogue.mirrors_opened source coordinator).history ops
  have hentries : r.2.entries = accepted c.1 := by
    have hheld := Registry.entries_history (.opened source coordinator) ops
    rwa [← hlog] at hheld
  have hanswer : r.2.answer = c.2.answer := funext fun query => (hmirrors.answer_eq query).symm
  have hholds : c.2.Holds (accepted c.1) := hentries ▸ hmirrors.holds
  refine ⟨⟨hholds, hholds.takes, ?_⟩, hlog.symm, hentries, hanswer⟩
  rw [← hanswer, ← hentries]
  exact Registry.tells hmirrors.opened hmirrors.nodup

end BootEngine
