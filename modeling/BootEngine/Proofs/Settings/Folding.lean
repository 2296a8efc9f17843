import Mathlib.Data.String.Basic
import BootEngine.Proofs.Text.LowerCase
import BootEngine.Settings.Sources

/-!
# Merged trees

Merging puts the entries of a table in order and their keys in small letters, on all levels outside
lists. A tree that has been merged once is not changed by being merged again, so it makes no
difference for a single document whether it is read from a file or built first.

Contents:
* `Table.get?_insert_self`, `Table.IsOrdered.insert`: tables with an entry set.
* `Tree.IsFolded`, `Tree.IsFolded.merge`: trees as merging leaves them.
* `Tree.IsFolded.merge_eq`: merging a folded tree on its own changes nothing.
* `Tree.get?_mergeEntries`: what a merged table holds under a name.
* `gather_built`: a document that has been built, and one in a file.
-/

namespace BootEngine

open Text (lowerCase IsSmall lowerCase_eq_self isSmall_of_mem_lowerCase)

/-! ## Tables -/

namespace Table

variable {α : Type} {key other : String} {value : α} {entries : List (String × α)}

/-- The entry that has been set is there. -/
@[simp] theorem get?_insert_self : get? (insert key value entries) key = some value := by
  induction entries with
  | nil => simp [insert, get?]
  | cons entry rest ih =>
    rw [insert]
    split
    · simp [get?]
    · next hkey =>
      split
      · simp [get?]
      · rw [get?, List.lookup_cons, (Bool.not_eq_true _).mp hkey]
        exact ih

/-- The other entries stay as they are. -/
theorem get?_insert_of_ne (h : other ≠ key) :
    get? (insert key value entries) other = get? entries other := by
  have hne : (other == key) = false := beq_eq_false_iff_ne.mpr h
  induction entries with
  | nil => simp [insert, get?, h]
  | cons entry rest ih =>
    unfold get? at ih ⊢
    rw [insert]
    split
    · next hkey =>
      rw [List.lookup_cons, List.lookup_cons, ← beq_iff_eq.mp hkey, hne]
    · split
      · rw [List.lookup_cons, hne]
      · rw [List.lookup_cons, List.lookup_cons, ih]

theorem mem_of_mem_insert {e : String × α} (h : e ∈ insert key value entries) :
    e = (key, value) ∨ e ∈ entries := by
  induction entries with
  | nil => exact .inl (List.mem_singleton.mp h)
  | cons entry rest ih =>
    rw [insert] at h
    split at h
    · rcases List.mem_cons.mp h with h | h
      · exact .inl h
      · exact .inr (List.mem_cons_of_mem _ h)
    · split at h
      · exact List.mem_cons.mp h
      · rcases List.mem_cons.mp h with h | h
        · exact .inr (h ▸ List.mem_cons_self ..)
        · exact (ih h).imp_right (List.mem_cons_of_mem _)

theorem mem_of_get? (h : get? entries key = some value) : (key, value) ∈ entries := by
  obtain ⟨front, back, rfl, -⟩ := List.lookup_eq_some_iff.mp h
  simp

/-- The keys of a table stand in order, each once. -/
def IsOrdered (entries : List (String × α)) : Prop := entries.Pairwise fun e f => e.1 < f.1

/-- Setting an entry keeps the keys in order. -/
theorem IsOrdered.insert (h : IsOrdered entries) : IsOrdered (insert key value entries) := by
  induction entries with
  | nil => exact List.pairwise_singleton _ _
  | cons entry rest ih =>
    obtain ⟨hfirst, hrest⟩ := List.pairwise_cons.mp h
    rw [Table.insert]
    split
    · next hkey =>
      exact List.pairwise_cons.mpr ⟨by rwa [beq_iff_eq.mp hkey], hrest⟩
    · next hkey =>
      split
      · next hlt =>
        refine List.pairwise_cons.mpr ⟨fun e he => ?_, h⟩
        rcases List.mem_cons.mp he with rfl | he
        · exact hlt
        · exact hlt.trans (hfirst e he)
      · next hlt =>
        have hbehind : entry.1 < key :=
          lt_of_le_of_ne (not_lt.mp hlt) fun he => hkey (beq_iff_eq.mpr he.symm)
        refine List.pairwise_cons.mpr ⟨fun e he => ?_, ih hrest⟩
        rcases mem_of_mem_insert he with rfl | he
        · exact hbehind
        · exact hfirst e he

/-- A new last key comes last. -/
theorem insert_eq_append (h : ∀ e ∈ entries, e.1 < key) :
    insert key value entries = entries ++ [(key, value)] := by
  induction entries with
  | nil => rfl
  | cons entry rest ih =>
    obtain ⟨hfirst, hrest⟩ := List.forall_mem_cons.mp h
    rw [insert, if_neg fun he => hfirst.ne' (beq_iff_eq.mp he), if_neg hfirst.asymm, ih hrest,
      List.cons_append]

end Table

namespace Tree

/-! ## Folded trees -/

/-- A tree as merging leaves it: the keys of tables outside lists are in small letters and stand in
    order. -/
inductive IsFolded : Tree → Prop where
  | leaf (value : Value) (fromEnvironment : Bool) : IsFolded (.leaf value fromEnvironment)
  | list (items : List Tree) : IsFolded (.list items)
  | table {entries : List (String × Tree)} (ordered : Table.IsOrdered entries)
      (small : ∀ e ∈ entries, lowerCase e.1 = e.1) (inner : ∀ e ∈ entries, IsFolded e.2) :
      IsFolded (.table entries)

namespace IsFolded

variable {t : Tree}

theorem empty : IsFolded .empty :=
  .table .nil (fun _ h => nomatch h) fun _ h => nomatch h

theorem ordered (h : IsFolded t) : Table.IsOrdered t.entries := by
  cases h with
  | table ordered => exact ordered
  | _ => exact .nil

theorem small (h : IsFolded t) {e : String × Tree} (he : e ∈ t.entries) : lowerCase e.1 = e.1 := by
  cases h with
  | table _ small => exact small e he
  | _ => cases he

theorem inner (h : IsFolded t) {e : String × Tree} (he : e ∈ t.entries) : IsFolded e.2 := by
  cases h with
  | table _ _ inner => exact inner e he
  | _ => cases he

theorem of_get? (h : IsFolded t) {name : String} {u : Tree}
    (hu : u ∈ Table.get? t.entries name) : IsFolded u :=
  h.inner (e := (name, u)) (Table.mem_of_get? hu)

/-- Setting an entry under a name in small letters keeps a tree folded. -/
theorem insert (h : IsFolded t) {name : String} {u : Tree} (hname : lowerCase name = name)
    (hu : IsFolded u) : IsFolded (.table (Table.insert name u t.entries)) := by
  refine .table h.ordered.insert (fun e he => ?_) fun e he => ?_
  · rcases Table.mem_of_mem_insert he with rfl | he
    · exact hname
    · exact h.small he
  · rcases Table.mem_of_mem_insert he with rfl | he
    · exact hu
    · exact h.inner he

end IsFolded

@[simp] theorem merge_leaf (old : Option Tree) (value : Value) (fromEnvironment : Bool) :
    merge old (.leaf value fromEnvironment) = .leaf value fromEnvironment := by
  rw [merge]
  exact nofun

@[simp] theorem merge_list (old : Option Tree) (items : List Tree) :
    merge old (.list items) = .list items := by
  rw [merge]
  exact nofun

mutual

/-- What has been merged into a folded tree is folded. -/
theorem IsFolded.merge {old : Option Tree} (h : ∀ t ∈ old, IsFolded t) :
    (t : Tree) → IsFolded (merge old t)
  | .leaf value fromEnvironment => by
    rw [merge_leaf]
    exact .leaf value fromEnvironment
  | .list items => by
    rw [merge_list]
    exact .list items
  | .table incoming => by
    rw [Tree.merge]
    refine IsFolded.mergeEntries ?_ incoming
    cases old with
    | none => exact .empty
    | some t => exact h t rfl

theorem IsFolded.mergeEntries {target : Tree} (h : IsFolded target) :
    (incoming : List (String × Tree)) → IsFolded (mergeEntries target incoming)
  | [] => h
  | (key, t) :: rest => by
    rw [Tree.mergeEntries]
    exact IsFolded.mergeEntries (h.insert (Text.lowerCase_lowerCase key)
      (IsFolded.merge (fun _ => h.of_get?) t)) rest

end

/-- Entries put over a table whose keys all stand in front of theirs come behind it. -/
theorem mergeEntries_table {front incoming : List (String × Tree)}
    (hordered : Table.IsOrdered (front ++ incoming))
    (hsmall : ∀ e ∈ incoming, lowerCase e.1 = e.1) (hinner : ∀ e ∈ incoming, merge none e.2 = e.2) :
    mergeEntries (.table front) incoming = .table (front ++ incoming) := by
  induction incoming generalizing front with
  | nil => rw [mergeEntries, List.append_nil]
  | cons e rest ih =>
    obtain ⟨key, t⟩ := e
    obtain ⟨hkey, hrest⟩ := List.forall_mem_cons.mp hsmall
    obtain ⟨ht, hinner⟩ := List.forall_mem_cons.mp hinner
    have hfront : ∀ e ∈ front, e.1 < key := fun e he =>
      (List.pairwise_append.mp hordered).2.2 e he (key, t) (List.mem_cons_self ..)
    have hnew : Table.get? front key = none :=
      List.lookup_eq_none_iff.mpr fun e he => bne_iff_ne.mpr (hfront e he).ne'
    dsimp only at hkey ht
    rw [List.append_cons] at hordered ⊢
    rw [mergeEntries, hkey, entries, hnew, ht, Table.insert_eq_append hfront]
    exact ih hordered hrest hinner

/-- Merging a folded tree on its own changes nothing. -/
theorem IsFolded.merge_eq {t : Tree} (h : IsFolded t) : Tree.merge none t = t := by
  induction h with
  | leaf value fromEnvironment => exact merge_leaf ..
  | list items => exact merge_list ..
  | table ordered small _ ih =>
    rw [Tree.merge]
    exact @mergeEntries_table [] _ ordered small ih

/-! ## Entries of a merged table -/

/-- A table stays a table. -/
theorem mergeEntries_eq_table {target : Tree} (h : target = .table target.entries)
    (incoming : List (String × Tree)) :
    mergeEntries target incoming = .table (mergeEntries target incoming).entries := by
  induction incoming generalizing target with
  | nil => exact h
  | cons e rest ih =>
    obtain ⟨key, t⟩ := e
    rw [mergeEntries]
    exact ih rfl

theorem mergeEntries_append (target : Tree) (front back : List (String × Tree)) :
    mergeEntries target (front ++ back) = mergeEntries (mergeEntries target front) back := by
  induction front generalizing target with
  | nil => rfl
  | cons e rest ih =>
    obtain ⟨key, t⟩ := e
    rw [List.cons_append, mergeEntries, mergeEntries, ih]

/-- Entries with other names leave an entry as it is. -/
theorem get?_mergeEntries_of_ne {target : Tree} {name : String} {incoming : List (String × Tree)}
    (h : ∀ e ∈ incoming, lowerCase e.1 ≠ name) :
    Table.get? (mergeEntries target incoming).entries name = Table.get? target.entries name := by
  induction incoming generalizing target with
  | nil => rfl
  | cons e rest ih =>
    obtain ⟨key, t⟩ := e
    obtain ⟨hkey, hrest⟩ := List.forall_mem_cons.mp h
    rw [mergeEntries, ih hrest]
    exact Table.get?_insert_of_ne (Ne.symm hkey)

/-- An entry that is the only one with its name is merged into what was under that name. -/
theorem get?_mergeEntries {target t : Tree} {key : String} {front back : List (String × Tree)}
    (hfront : ∀ e ∈ front, lowerCase e.1 ≠ lowerCase key)
    (hback : ∀ e ∈ back, lowerCase e.1 ≠ lowerCase key) :
    Table.get? (mergeEntries target (front ++ (key, t) :: back)).entries (lowerCase key) =
      some (merge (Table.get? target.entries (lowerCase key)) t) := by
  rw [mergeEntries_append, mergeEntries, get?_mergeEntries_of_ne hback,
    get?_mergeEntries_of_ne hfront]
  exact Table.get?_insert_self

/-! ## Documents -/

end Tree

namespace Path

/-- The text behind a place in brackets is the end of the text. -/
theorem isSuffix_of_bracketed? {cs rest : List Char} {place : Int}
    (h : bracketed? cs = some (place, rest)) : rest <:+ cs := by
  unfold bracketed? at h
  dsimp only at h
  have hbody : (if ((dropBlanks cs).head? == some '-') = true then (dropBlanks cs).drop 1
      else dropBlanks cs) <:+ cs := by
    split
    · exact (List.drop_suffix ..).trans (List.dropWhile_suffix _)
    · exact List.dropWhile_suffix _
  generalize (if ((dropBlanks cs).head? == some '-') = true then (dropBlanks cs).drop 1
    else dropBlanks cs) = body at h hbody
  split at h
  · next digits others _ hclosed =>
    have hothers : others <:+ body := by
      refine (List.suffix_cons ']' others).trans ?_
      rw [← hclosed]
      exact (List.dropWhile_suffix _).trans (List.drop_suffix ..)
    have hrest : others = rest := by
      generalize (if ((dropBlanks cs).head? == some '-') = true then
        -(Text.decimal (body.takeWhile Char.isDigit) : Int)
        else Text.decimal (body.takeWhile Char.isDigit)) = n at h
      split at h
      · exact (Prod.mk.inj (Option.some.inj h)).2
      · cases h
    exact hrest ▸ hothers.trans hbody
  · cases h

/-- The names of steps are made of characters of the text. -/
theorem subset_of_more? {fuel : Nat} {cs : List Char} {steps : Path} {name : String}
    (h : more? fuel cs = some steps) (hname : .entry name ∈ steps) : name.toList ⊆ cs := by
  fun_induction more? fuel cs generalizing steps with
  | case1 =>
    obtain rfl := Option.some.inj h
    cases hname
  | case4 fuel rest first _ =>
    rename_i ih
    obtain ⟨others, hothers, rfl⟩ := Option.map_eq_some_iff.mp h
    rcases List.mem_cons.mp hname with hname | hname
    · obtain rfl := PathStep.entry.inj hname
      rw [String.toList_ofList]
      exact List.Subset.trans (List.takeWhile_prefix _).subset (List.subset_cons_self ..)
    · exact List.Subset.trans (ih hothers hname)
        (List.Subset.trans (List.drop_subset ..) (List.subset_cons_self ..))
  | case5 fuel cs place rest hplace ih =>
    obtain ⟨others, hothers, rfl⟩ := Option.map_eq_some_iff.mp h
    rcases List.mem_cons.mp hname with hname | hname
    · cases hname
    · exact List.Subset.trans (ih hothers hname)
        (List.Subset.trans (isSuffix_of_bracketed? hplace).subset (List.subset_cons_self ..))
  | _ => cases h

/-- The names in a path are in small letters. -/
theorem lowerCase_of_mem_ofText {s name : String} (h : .entry name ∈ ofText s) :
    lowerCase name = name := by
  have hchars : name.toList ⊆ (lowerCase s).toList := by
    unfold ofText at h
    dsimp only at h
    split at h
    · next first rest steps _ hmore =>
      rcases List.mem_cons.mp h with h | h
      · obtain rfl := PathStep.entry.inj h
        rw [String.toList_ofList]
        exact (List.takeWhile_prefix _).subset
      · exact List.Subset.trans (subset_of_more? hmore h) (List.drop_subset ..)
    · obtain rfl := PathStep.entry.inj (List.mem_singleton.mp h)
      rw [String.toList_ofList]
      exact List.Subset.refl _
  exact lowerCase_eq_self fun c hc => isSmall_of_mem_lowerCase (hchars hc)

/-- A path begins with a name. -/
theorem ofText_eq_cons (s : String) : ∃ name steps, ofText s = .entry name :: steps := by
  unfold ofText
  dsimp only
  split
  · exact ⟨_, _, rfl⟩
  · exact ⟨_, _, rfl⟩

end Path

namespace Tree

/-! ## Documents -/

/-- Changing what stands at a path keeps a tree folded, if the names in the path are in small
    letters; what stands inside a list does not matter. -/
theorem IsFolded.setAt {change : Option Tree → Tree} {path : Path}
    (hnames : ∀ name, .entry name ∈ path → lowerCase name = name)
    (hchange : (∀ place, .item place ∉ path) →
      ∀ old, (∀ t ∈ old, IsFolded t) → IsFolded (change old))
    {old : Option Tree} (hold : ∀ t ∈ old, IsFolded t) : IsFolded (setAt change path old) := by
  induction path generalizing old with
  | nil => exact hchange (fun _ h => nomatch h) old hold
  | cons step rest ih =>
    cases step with
    | entry name =>
      have htable : IsFolded (old.getD Tree.empty) := by
        cases old with
        | none => exact .empty
        | some t => exact hold t rfl
      rw [Tree.setAt]
      refine htable.insert (hnames name (List.mem_cons_self ..)) (ih ?_ ?_ fun _ => htable.of_get?)
      · exact fun name hname => hnames name (List.mem_cons_of_mem _ hname)
      · refine fun hitems => hchange fun place hplace => ?_
        rcases List.mem_cons.mp hplace with h | h
        · cases h
        · exact hitems place h
    | item place =>
      rw [Tree.setAt]
      exact .list _

theorem IsFolded.put {t : Tree} (h : IsFolded t) (key : String) (v : Value) :
    IsFolded (t.put (Path.ofText key) v) := by
  have hold : ∀ u ∈ some t, IsFolded u := by
    rintro u ⟨⟩
    exact h
  unfold Tree.put
  split
  · next place hlast =>
    exact IsFolded.setAt (fun _ => Path.lowerCase_of_mem_ofText)
      (fun hitems => absurd (List.mem_of_getLast? hlast) (hitems place)) hold
  · exact IsFolded.setAt (fun _ => Path.lowerCase_of_mem_ofText)
      (fun _ _ hold => IsFolded.merge hold _) hold

/-- Putting a setting into a tree sets the entry that its path begins with. -/
theorem exists_put_eq (t : Tree) {path : Path} {name : String} {steps : Path}
    (hpath : path = .entry name :: steps) (v : Value) :
    ∃ u, t.put path v = .table (Table.insert name u t.entries) := by
  subst hpath
  unfold put
  split <;> exact ⟨_, rfl⟩

/-- A document that is put into a folded table makes a folded table. -/
theorem IsFolded.putAll {t : Tree} (h : IsFolded t) (htable : t = .table t.entries)
    (document : List (String × Value)) :
    IsFolded (t.putAll document) ∧ t.putAll document = .table (t.putAll document).entries := by
  unfold Tree.putAll
  induction document generalizing t with
  | nil => exact ⟨h, htable⟩
  | cons e rest ih =>
    obtain ⟨name, steps, hpath⟩ := Path.ofText_eq_cons e.1
    obtain ⟨u, hput⟩ := exists_put_eq t hpath e.2
    exact ih (h.put e.1 e.2) (by dsimp only; rw [hput, entries])

/-- Settings elsewhere leave an entry of a table as it is. -/
theorem get?_putAll_of_ne {t : Tree} {name : String} {document : List (String × Value)}
    (h : ∀ e ∈ document, (Path.ofText e.1).head? ≠ some (.entry name)) :
    Table.get? (t.putAll document).entries name = Table.get? t.entries name := by
  unfold putAll
  induction document generalizing t with
  | nil => rfl
  | cons e rest ih =>
    obtain ⟨he, hrest⟩ := List.forall_mem_cons.mp h
    obtain ⟨first, steps, hpath⟩ := Path.ofText_eq_cons e.1
    obtain ⟨u, hput⟩ := exists_put_eq t hpath e.2
    have hne : name ≠ first := by
      rintro rfl
      exact he (by rw [hpath, List.head?_cons])
    rw [List.foldl_cons, ih hrest, hput]
    exact Table.get?_insert_of_ne hne

/-- The only setting of a document below a name of its own is merged into what was there. -/
theorem get?_putAll {t : Tree} {key name : String} {v : Value} {front back : List (String × Value)}
    (hpath : Path.ofText key = [.entry name])
    (hfront : ∀ e ∈ front, (Path.ofText e.1).head? ≠ some (.entry name))
    (hback : ∀ e ∈ back, (Path.ofText e.1).head? ≠ some (.entry name)) :
    Table.get? (t.putAll (front ++ (key, v) :: back)).entries name =
      some (merge (Table.get? t.entries name) (ofValue v)) := by
  have hsplit : t.putAll (front ++ (key, v) :: back) =
      ((t.putAll front).put (Path.ofText key) v).putAll back := by
    unfold putAll
    rw [List.foldl_append, List.foldl_cons]
  rw [hsplit, get?_putAll_of_ne hback, hpath, ← get?_putAll_of_ne (t := t) hfront]
  exact Table.get?_insert_self

end Tree

/-! ## Single documents -/

theorem gather_file (document : List (String × Value)) :
    gather [.file document] = .ok (Tree.empty.putAll document) := rfl

/-- A single document makes the same settings whether it has been built or comes from a file. -/
theorem gather_built (document : List (String × Value)) :
    gather [.built (Tree.empty.putAll document)] = .ok (Tree.empty.putAll document) := by
  obtain ⟨hfolded, htable⟩ := Tree.IsFolded.empty.putAll rfl document
  have hmerge := hfolded.merge_eq
  rw [htable, Tree.merge] at hmerge
  refine congrArg Except.ok ?_
  rw [htable]
  exact hmerge

end BootEngine
