import BootEngine.Proofs.Settings.Folding
import BootEngine.Proofs.Startup.Stages

/-!
# Sections of components

A document has sections for components, each under the name of its component. The name has gone to
small letters when the section is looked for, by a rule for all letters, while the look-up passes
over the case of ASCII letters only. So a component finds the section under its own name if lower
case changes no letter of that name but ASCII letters, and finds no section at all otherwise.

Contents:
* `Settings.component?_eq`: the look-up among names in small letters.
* `HasSections`, `HasSection`: the section of a name in a document.
* `Settings.component?_of_load`: what is kept of it.
* `section_found_iff`: what a component finds; `capital_section_lost`: a name that finds nothing.
-/

namespace BootEngine

open Startup (Inputs GetsTo Phase)
open Text (lowerCase sameUpToAsciiCase)

/-! ## Looking a section up -/

/-- The first entry that meets a test for a key is the one under that key. -/
theorem map_find?_eq_get? {α : Type} {test : String × α → Bool} {entries : List (String × α)}
    {key : String} (h : ∀ e ∈ entries, test e = (key == e.1)) :
    (entries.find? test).map Prod.snd = Table.get? entries key := by
  unfold Table.get?
  induction entries with
  | nil => rfl
  | cons e rest ih =>
    obtain ⟨he, hrest⟩ := List.forall_mem_cons.mp h
    rw [List.find?_cons, List.lookup_cons, he]
    cases key == e.1 with
    | true => rfl
    | false => exact ih hrest

/-- Among sections under names in small letters, a name can only find the one under its own form in
    small letters, and finds it if the two differ in the case of ASCII letters alone. -/
theorem Settings.component?_eq {s : Settings} (h : ∀ e ∈ s.components, lowerCase e.1 = e.1)
    (name : String) : s.component? name =
      if sameUpToAsciiCase (lowerCase name) name then Table.get? s.components (lowerCase name)
      else none := by
  have hown : ∀ e ∈ s.components, sameUpToAsciiCase e.1 name = true → e.1 = lowerCase name :=
    fun e he => Text.eq_lowerCase_of_same (h e he)
  unfold component?
  split
  · next v hv =>
    have hname : lowerCase name = name := h (name, v) (Table.mem_of_get? hv)
    have hself : sameUpToAsciiCase name name = true := Text.sameUpToAsciiCase_iff.mpr rfl
    rw [hname, if_pos hself, ← hv]
    rfl
  · split
    · next hsame =>
      refine map_find?_eq_get? fun e he => Bool.eq_iff_iff.mpr ⟨fun hs => ?_, fun hs => ?_⟩
      · exact beq_iff_eq.mpr (hown e he hs).symm
      · rwa [← beq_iff_eq.mp hs]
    · next hdiffers =>
      have hnone : s.components.find? (fun e => sameUpToAsciiCase e.1 name) = none :=
        List.find?_eq_none.mpr fun e he hs => hdiffers (by rwa [← hown e he hs])
      rw [hnone, Option.map_none]

/-! ## Sections in documents -/

/-- The sections of components that a document has: they stand in a table of their own, and nothing
    else in the document leads there. -/
def HasSections (document sections : List (String × Value)) : Prop :=
  ∃ front back, document = front ++ ("components", .table sections) :: back ∧
    ∀ e ∈ front ++ back, (Path.ofText e.1).head? ≠ some (.entry "components")

/-- Among sections there is one under just this name, and no other one whose name is the same up to
    case. -/
def HasSection (sections : List (String × Value)) (name : String) (v : Value) : Prop :=
  ∃ front back, sections = front ++ (name, v) :: back ∧
    ∀ e ∈ front ++ back, lowerCase e.1 ≠ lowerCase name

/-- A source that is a single document, in a file or built. -/
def ConfigSource.IsDocument (source : ConfigSource) (document : List (String × Value)) : Prop :=
  source = .file document ∨ source = .built (Tree.empty.putAll document)

/-- A value as it comes out of a configuration: the keys of its tables have gone to small letters
    and stand in order. -/
def Value.folded (v : Value) : Value := (Tree.merge none (Tree.ofValue v)).toValue

theorem toEntries_eq_map (entries : List (String × Tree)) :
    Tree.toEntries entries = entries.map fun e => (e.1, e.2.toValue) := by
  induction entries with
  | nil => rfl
  | cons e rest ih =>
    obtain ⟨key, t⟩ := e
    rw [Tree.toEntries, ih, List.map_cons]

theorem ofEntries_eq_map (entries : List (String × Value)) :
    Tree.ofEntries entries = entries.map fun e => (e.1, Tree.ofValue e.2) := by
  induction entries with
  | nil => rfl
  | cons e rest ih =>
    obtain ⟨key, v⟩ := e
    rw [Tree.ofEntries, ih, List.map_cons]

theorem get?_toEntries (entries : List (String × Tree)) (name : String) :
    Table.get? (Tree.toEntries entries) name = (Table.get? entries name).map Tree.toValue := by
  unfold Table.get?
  rw [toEntries_eq_map]
  induction entries with
  | nil => rfl
  | cons e rest ih =>
    rw [List.map_cons, List.lookup_cons, List.lookup_cons]
    cases name == e.1 with
    | true => rfl
    | false => exact ih

/-- A step that goes on has an answer to go on with. -/
theorem bind_eq_ok {α β ε : Type} {x : Except ε α} {f : α → Except ε β} {b : β}
    (h : x >>= f = .ok b) : ∃ a, x = .ok a ∧ f a = .ok b := by
  cases x with
  | error e => cases h
  | ok a => exact ⟨a, rfl, h⟩

namespace Settings

/-- The settings of a tree keep the sections of components that it has. -/
theorem components_of_ofTree {t : Tree} {entries : List (String × Tree)} {s : Settings}
    (hentries : Table.get? t.entries "components" = some (.table entries))
    (hs : ofTree t = .ok s) : s.components = Tree.toEntries entries := by
  have hread : readTree t = .ok s := by
    unfold ofTree at hs
    cases hread : readTree t with
    | error fault =>
      rw [hread] at hs
      cases hs
    | ok settings =>
      rw [hread] at hs
      dsimp only at hs
      split at hs
      · cases hs
      · exact congrArg Except.ok (Except.ok.inj hs)
  obtain ⟨roots, -, h⟩ := bind_eq_ok hread
  obtain ⟨disabled, -, h⟩ := bind_eq_ok h
  obtain ⟨acquireLimit, -, h⟩ := bind_eq_ok h
  obtain ⟨disposeLimit, -, h⟩ := bind_eq_ok h
  obtain ⟨components, hcomponents, h⟩ := bind_eq_ok h
  rw [Lenient.part, hentries] at hcomponents
  obtain rfl := Except.ok.inj h
  exact (Except.ok.inj hcomponents).symm

variable {source : ConfigSource} {document sections : List (String × Value)} {s : Settings}

/-- The settings of a single document keep the sections that it has, merged into an empty table. -/
theorem components_of_load (hsource : source.IsDocument document)
    (hsections : HasSections document sections) (hload : load [source] = .ok s) :
    s.components =
      Tree.toEntries (Tree.mergeEntries .empty (Tree.ofEntries sections)).entries := by
  have hgather : gather [source] = .ok (Tree.empty.putAll document) := by
    rcases hsource with rfl | rfl
    · exact gather_file document
    · exact gather_built document
  rw [load, hgather] at hload
  refine components_of_ofTree ?_ hload
  obtain ⟨front, back, rfl, hothers⟩ := hsections
  obtain ⟨hfront, hback⟩ := List.forall_mem_append.mp hothers
  have hpath : Path.ofText "components" = [.entry "components"] := by decide
  rw [Tree.get?_putAll hpath hfront hback, Tree.ofValue, Tree.merge]
  exact congrArg some (Tree.mergeEntries_eq_table rfl _)

/-- A section of a single document is found under every name with the same form in small letters
    that is the same as that form up to ASCII case, and under no other one of these names. -/
theorem component?_of_load (hsource : source.IsDocument document)
    (hsections : HasSections document sections) (hload : load [source] = .ok s)
    {name other : String} {v : Value} (hv : HasSection sections name v)
    (hother : lowerCase other = lowerCase name) :
    s.component? other =
      if sameUpToAsciiCase (lowerCase name) other then some v.folded else none := by
  have hcomponents := components_of_load hsource hsections hload
  have hsmall : ∀ e ∈ s.components, lowerCase e.1 = e.1 := by
    rw [hcomponents, toEntries_eq_map]
    refine List.forall_mem_map.mpr fun e he => ?_
    exact (Tree.IsFolded.empty.mergeEntries _).small he
  have hkept : Table.get? s.components (lowerCase name) = some v.folded := by
    obtain ⟨front, back, rfl, hothers⟩ := hv
    obtain ⟨hfront, hback⟩ := List.forall_mem_append.mp hothers
    have hnames : ∀ es : List (String × Value), (∀ e ∈ es, lowerCase e.1 ≠ lowerCase name) →
        ∀ e ∈ es.map fun e => (e.1, Tree.ofValue e.2), lowerCase e.1 ≠ lowerCase name := by
      intro es hes e he
      obtain ⟨e, hin, rfl⟩ := List.mem_map.mp he
      exact hes e hin
    rw [hcomponents, get?_toEntries, ofEntries_eq_map, List.map_append, List.map_cons,
      Tree.get?_mergeEntries (hnames front hfront) (hnames back hback)]
    rfl
  rw [component?_eq hsmall, hother, hkept]

end Settings

/-! ## What a component finds -/

/-- A run that gets to building a component has read its settings. -/
theorem Startup.GetsTo.load_eq {inputs : Inputs} {web : Bool} {c : Registration} {r : Run}
    (h : GetsTo inputs (.create web c) r) : Settings.load inputs.config = .ok r.settings := by
  obtain ⟨done, phase, made, hnext, hmid⟩ := h
  obtain ⟨s, hs, hframe⟩ := hmid.frame
  have hphase : Phase.ofLayer web = phase := Agenda.phase_of_next hnext
  subst hphase
  have hin : .configuration ∈ done :=
    (Phase.mem_front_iff hmid.isFront).mpr (by cases web <;> decide)
  rw [(hframe.settings (by cases web <;> decide)).1]
  exact (hs.settings_eq hin).1

/-- Of a single document that has a section under just the name of a component, the component gets
    that section if lower case changes no letter of the name but ASCII letters, and no section
    otherwise. The same goes for all names that differ from it in the case of ASCII letters only. -/
theorem section_found_iff {source : ConfigSource} {document sections : List (String × Value)}
    {name : String} {v : Value} {s : Settings} (hsource : source.IsDocument document)
    (hsections : HasSections document sections) (hv : HasSection sections name v)
    (hload : Settings.load [source] = .ok s) :
    s.component? name = (if sameUpToAsciiCase (lowerCase name) name then some v.folded else none) ∧
    (∀ other, sameUpToAsciiCase other name = true → s.component? other = s.component? name) ∧
    ∀ inputs : Inputs, inputs.config = [source] → ∀ web c r, GetsTo inputs (.create web c) r →
      c.descriptor.key.name = name → (r.view c).settings? = s.component? name := by
  have hfound := Settings.component?_of_load hsource hsections hload hv rfl
  refine ⟨hfound, fun other hsame => ?_, fun inputs hconfig web c r h hname => ?_⟩
  · have hother := Text.lowerCase_eq_of_same hsame
    rw [hfound, Settings.component?_of_load hsource hsections hload hv hother]
    exact if_congr (Text.same_iff_of_same hsame _) rfl rfl
  · have hsettings := h.load_eq
    rw [hconfig, hload] at hsettings
    rw [Startup.Run.view, hname, ← Except.ok.inj hsettings]

/-- A document with a section for one component. -/
def onlySection (name : String) : List (String × Value) :=
  [("components", .table [(name, .table [("table", .text "orders")])])]

theorem section_found_iff_orders :
    ∃ s, Settings.load [.file (onlySection "Orders")] = .ok s ∧
      s.component? "Orders" = some (Value.folded (.table [("table", .text "orders")])) ∧
        s.component? "ORDERS" = s.component? "Orders" := by
  obtain ⟨s, hload⟩ : ∃ s, Settings.load [.file (onlySection "Orders")] = .ok s := ⟨_, rfl⟩
  have hsections : HasSections (onlySection "Orders")
      [("Orders", .table [("table", .text "orders")])] := ⟨[], [], rfl, by simp⟩
  have hsection : HasSection [("Orders", .table [("table", .text "orders")])] "Orders"
      (.table [("table", .text "orders")]) := ⟨[], [], rfl, by simp⟩
  obtain ⟨hfound, hspellings, -⟩ := section_found_iff (.inl rfl) hsections hsection hload
  rw [if_pos (by decide)] at hfound
  exact ⟨s, hload, hfound, hspellings "ORDERS" (by decide)⟩

/-- A component whose name has a capital letter beyond ASCII does not find the section that stands
    under just its name. -/
theorem capital_section_lost :
    ∃ s, Settings.load [.file (onlySection "Ärger")] = .ok s ∧
      HasSections (onlySection "Ärger") [("Ärger", .table [("table", .text "orders")])] ∧
        HasSection [("Ärger", .table [("table", .text "orders")])] "Ärger"
          (.table [("table", .text "orders")]) ∧
          s.component? "Ärger" = none :=
  ⟨_, rfl, ⟨[], [], rfl, by simp⟩, ⟨[], [], rfl, by simp⟩, by decide +kernel⟩

end BootEngine
