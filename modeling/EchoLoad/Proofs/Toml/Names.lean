import EchoLoad.Toml.Document
import Mathlib.Data.List.Nodup

/-!
# Every name of a table stands once

> `distinct_of_document?`: in all the tables of a document that is well formed, whether they come from
> headers, from dotted keys or from braces, each name stands once.

A table changes in two ways only. An item is put under a name that it has not (`Entries.Distinct.append`),
or the item of a name that it has is replaced (`Entries.Distinct.put`). `descend` does the second at each
level on its way, so it keeps what the action at its end keeps (`distinct_of_descend`).
-/

namespace EchoLoad.Toml

/-- In all tables of an item, at any depth, each name stands once. -/
inductive Item.Distinct : Item → Prop
  | string (text : String) : Distinct (.string text)
  | integer (value : Int) : Distinct (.integer value)
  | real (value : Float) : Distinct (.real value)
  | boolean (value : Bool) : Distinct (.boolean value)
  | moment (text : String) : Distinct (.moment text)
  | array {items : List Item} (h : ∀ item ∈ items, Distinct item) : Distinct (.array items)
  | table {form : Form} {entries : Entries} (names : (entries.map Prod.fst).Nodup)
      (within : ∀ entry ∈ entries, Distinct entry.2) : Distinct (.table form entries)
  | tables {items : List Entries} (names : ∀ entries ∈ items, (entries.map Prod.fst).Nodup)
      (within : ∀ entries ∈ items, ∀ entry ∈ entries, Distinct entry.2) : Distinct (.tables items)

namespace Entries

/-- In a table, and in all tables in it, each name stands once. -/
structure Distinct (entries : Entries) : Prop where
  names : (entries.map Prod.fst).Nodup
  within : ∀ entry ∈ entries, entry.2.Distinct

theorem distinct_nil : Distinct [] := ⟨List.nodup_nil, List.forall_mem_nil _⟩

theorem Distinct.item {entries : Entries} {form : Form} (h : entries.Distinct) :
    (Item.table form entries).Distinct := .table h.names h.within

theorem distinct_of_table {entries : Entries} {form : Form} (h : (Item.table form entries).Distinct) :
    entries.Distinct := by
  cases h with
  | table names within => exact ⟨names, within⟩

theorem distinct_tables_iff {items : List Entries} :
    (Item.tables items).Distinct ↔ ∀ entries ∈ items, entries.Distinct := by
  constructor
  · rintro ⟨⟩
    next names within => exact fun entries hentries => ⟨names entries hentries, within entries hentries⟩
  · exact fun h => .tables (fun entries hentries => (h entries hentries).names)
      fun entries hentries => (h entries hentries).within

theorem get?_eq_none_iff {entries : Entries} {name : String} :
    entries.get? name = none ↔ name ∉ entries.map Prod.fst := by
  simp only [get?, Option.map_eq_none_iff, List.find?_eq_none, decide_eq_true_eq, List.mem_map, not_exists,
    not_and]

theorem mem_of_get? {entries : Entries} {name : String} {item : Item}
    (h : entries.get? name = some item) : (name, item) ∈ entries := by
  obtain ⟨entry, hfound, rfl⟩ := Option.map_eq_some_iff.mp h
  have hname := List.find?_some hfound
  exact of_decide_eq_true hname ▸ List.mem_of_find?_eq_some hfound

namespace Distinct

variable {entries : Entries} {name : String} {item : Item}

theorem get? (h : entries.Distinct) (hitem : entries.get? name = some item) : item.Distinct :=
  h.within _ (mem_of_get? hitem)

/-- Only one item has a name. -/
theorem unique (h : entries.Distinct) {other : Item} (hitem : (name, item) ∈ entries)
    (hother : (name, other) ∈ entries) : item = other :=
  congrArg Prod.snd (List.inj_on_of_nodup_map h.names hitem hother rfl)

theorem append (h : entries.Distinct) (hnew : entries.get? name = none) (hitem : item.Distinct) :
    Distinct (entries ++ [(name, item)]) where
  names := by
    rw [List.map_append, List.map_singleton]
    rw [← List.concat_eq_append]
    exact h.names.concat (get?_eq_none_iff.mp hnew)
  within := by
    intro entry hentry
    rcases List.mem_append.mp hentry with hentry | hentry
    · exact h.within entry hentry
    · rw [List.mem_singleton.mp hentry]
      exact hitem

theorem put (h : entries.Distinct) (hitem : item.Distinct) : (entries.put name item).Distinct := by
  unfold Entries.put
  split
  next =>
    have hnames : (entries.map fun e => if e.1 = name then (name, item) else e).map Prod.fst =
        entries.map Prod.fst := by
      rw [List.map_map]
      refine List.map_congr_left fun e _ => ?_
      by_cases he : e.1 = name
      · simp [he]
      · simp [he]
    refine ⟨hnames ▸ h.names, fun entry hentry => ?_⟩
    obtain ⟨old, hold, rfl⟩ := List.mem_map.mp hentry
    split
    · exact hitem
    · exact h.within old hold
  next hnone =>
    have hnew : entries.get? name = none := by
      rw [get?_eq_none_iff]
      simpa [List.any_eq_true, List.mem_map] using hnone
    exact h.append hnew hitem

theorem erase (h : entries.Distinct) (name : String) : (entries.erase name).Distinct where
  names := h.names.sublist (List.filter_sublist.map Prod.fst)
  within := fun entry hentry => h.within entry (List.mem_of_mem_filter hentry)

end Distinct

end Entries

/-! ## Going down a path -/

/-- An action on a table keeps its names apart, and gives a result of some kind. -/
def Keeps {α : Type} (act : Form → Entries → Option (Entries × α)) (kind : α → Prop) : Prop :=
  ∀ {form : Form} {entries after : Entries} {x : α}, entries.Distinct →
    act form entries = some (after, x) → after.Distinct ∧ kind x

theorem keeps_descend {α : Type} {dotted : Bool} {act : Form → Entries → Option (Entries × α)}
    {kind : α → Prop} (hact : Keeps act kind) (path : List String) :
    Keeps (descend dotted act path) kind := by
  induction path with
  | nil => exact hact
  | cons name path ih =>
    intro form entries after x hentries h
    rw [descend] at h
    split at h
    next =>
      obtain ⟨⟨sub, y⟩, hsub, h⟩ := Option.bind_eq_some_iff.mp h
      cases h
      obtain ⟨hsub, hx⟩ := ih Entries.distinct_nil hsub
      exact ⟨hentries.put hsub.item, hx⟩
    next => cases h
    next form sub hitem =>
      split at h
      · cases h
      · obtain ⟨⟨sub', y⟩, hsub, h⟩ := Option.bind_eq_some_iff.mp h
        cases h
        obtain ⟨hsub, hx⟩ := ih (Entries.distinct_of_table (hentries.get? hitem)) hsub
        exact ⟨hentries.put hsub.item, hx⟩
    next items hitem =>
      obtain ⟨last, hlast, h⟩ := Option.bind_eq_some_iff.mp h
      obtain ⟨⟨sub, y⟩, hsub, h⟩ := Option.bind_eq_some_iff.mp h
      cases h
      -- of several tables the last one is entered, and the others stay
      have hitems := Entries.distinct_tables_iff.mp (hentries.get? hitem)
      obtain ⟨hsub, hx⟩ := ih (hitems last (List.mem_of_getLast? hlast)) hsub
      refine ⟨hentries.put (Entries.distinct_tables_iff.mpr fun t ht => ?_), hx⟩
      rcases List.mem_append.mp ht with ht | ht
      · exact hitems t (List.dropLast_subset items ht)
      · rw [List.mem_singleton.mp ht]
        exact hsub
    next => cases h

theorem distinct_of_descend {α : Type} {dotted : Bool} {act : Form → Entries → Option (Entries × α)}
    (hact : ∀ {form : Form} {entries after : Entries} {x : α}, entries.Distinct →
      act form entries = some (after, x) → after.Distinct)
    {path : List String} {form : Form} {entries after : Entries} {x : α} (hentries : entries.Distinct)
    (h : descend dotted act path form entries = some (after, x)) : after.Distinct := by
  have hkeeps : Keeps act fun _ => True := fun hentries h => ⟨hact hentries h, trivial⟩
  exact (keeps_descend hkeeps path hentries h).1

theorem Entries.Distinct.addUnder {path : List String} {name : String} {item : Item} {form : Form}
    {entries after : Entries} (h : entries.Distinct) (hitem : item.Distinct)
    (hadd : addUnder path name item form entries = some after) : after.Distinct := by
  obtain ⟨⟨sub, x⟩, hdescend, rfl⟩ := Option.map_eq_some_iff.mp hadd
  refine distinct_of_descend (fun hentries hact => ?_) h hdescend
  split at hact
  · cases hact
  · split at hact
    · cases hact
    next hnew =>
      cases hact
      exact hentries.append (Option.not_isSome_iff_eq_none.mp hnew) hitem

/-! ## Values -/

theorem distinct_of_wordItem? {word : List Char} {item : Item} (h : wordItem? word = some item) :
    item.Distinct := by
  unfold wordItem? at h
  split at h
  · cases h
    exact .boolean true
  · cases h
    exact .boolean false
  · split at h
    · cases h
      exact .moment _
    · split at h
      · cases h
        exact .integer _
      · obtain ⟨x, -, rfl⟩ := Option.map_eq_some_iff.mp h
        exact .real x

theorem distinct_of_scalarItem? {cs rest : List Char} {item : Item}
    (h : scalarItem? cs = some (item, rest)) : item.Distinct := by
  have hmap {word rest' : List Char}
      (h : (wordItem? word).map (fun i => (i, rest')) = some (item, rest)) : item.Distinct := by
    obtain ⟨i, hi, heq⟩ := Option.map_eq_some_iff.mp h
    cases heq
    exact distinct_of_wordItem? hi
  unfold scalarItem? at h
  dsimp only at h
  split at h
  · split at h
    · exact hmap h
    · exact hmap h
  · exact hmap h

mutual

theorem distinct_of_value? {depth size : Nat} {cs rest : List Char} {item : Item}
    (h : value? depth size cs = some (item, rest)) : item.Distinct := by
  rw [value?.eq_def] at h
  split at h
  next =>
    obtain ⟨⟨s, rest'⟩, -, heq⟩ := Option.map_eq_some_iff.mp h
    cases heq
    exact .string s
  next =>
    obtain ⟨⟨s, rest'⟩, -, heq⟩ := Option.map_eq_some_iff.mp h
    cases heq
    exact .string s
  next =>
    split at h
    · cases h
    · exact distinct_of_arrayItems? (List.forall_mem_nil _) h
  next =>
    split at h
    · cases h
    · split at h
      · cases h
        exact Entries.distinct_nil.item
      · exact distinct_of_inlineEntries? Entries.distinct_nil h
  next => exact distinct_of_scalarItem? h
termination_by (depth, size, 1)

theorem distinct_of_arrayItems? {depth size : Nat} {got : List Item} {cs rest : List Char} {item : Item}
    (hgot : ∀ i ∈ got, i.Distinct) (h : arrayItems? depth size got cs = some (item, rest)) :
    item.Distinct := by
  rw [arrayItems?.eq_def] at h
  split at h
  next =>
    cases h
    exact .array fun i hi => hgot i (List.mem_reverse.mp hi)
  next => cases h
  next =>
    split at h
    next => cases h
    next i rest' hvalue =>
      have hnext : ∀ j ∈ i :: got, j.Distinct :=
        List.forall_mem_cons.mpr ⟨distinct_of_value? hvalue, hgot⟩
      split at h
      · exact distinct_of_arrayItems? hnext h
      · cases h
        exact .array fun j hj => hnext j (List.mem_reverse.mp hj)
      · cases h
termination_by (depth, size, 2)

theorem distinct_of_inlineEntries? {depth size : Nat} {got : Entries} {cs rest : List Char} {item : Item}
    (hgot : got.Distinct) (h : inlineEntries? depth size got cs = some (item, rest)) : item.Distinct := by
  rw [inlineEntries?.eq_def] at h
  split at h
  next => cases h
  next =>
    split at h
    next =>
      split at h
      next => cases h
      next i rest' hvalue =>
        split at h
        next => cases h
        next after hadd =>
          have hafter := hgot.addUnder (distinct_of_value? hvalue) hadd
          split at h
          · exact distinct_of_inlineEntries? hafter h
          · cases h
            exact hafter.item
          · cases h
    next => cases h
termination_by (depth, size, 2)

end

/-! ## Lines -/

/-- In the tables of a draft each name stands once. -/
structure Draft.Distinct (d : Draft) : Prop where
  root : d.root.Distinct
  opened : d.opened.Distinct

namespace Draft.Distinct

variable {d d' : Draft}

theorem new : Draft.new.Distinct := ⟨Entries.distinct_nil, Entries.distinct_nil⟩

/-- The open table joins the others: under a new name, or behind those of the same name. -/
theorem close (h : d.Distinct) {entries : Entries} (hclose : d.close = some entries) :
    entries.Distinct := by
  unfold Draft.close at hclose
  split at hclose
  · cases hclose
    exact h.opened
  · split at hclose
    · obtain ⟨⟨root, x⟩, hdescend, rfl⟩ := Option.map_eq_some_iff.mp hclose
      refine distinct_of_descend (fun hentries hact => ?_) h.root hdescend
      split at hact
      next =>
        cases hact
        refine hentries.put (Entries.distinct_tables_iff.mpr fun t ht => ?_)
        rw [List.mem_singleton.mp ht]
        exact h.opened
      next items hitems =>
        cases hact
        have hbefore := Entries.distinct_tables_iff.mp (hentries.get? hitems)
        refine hentries.put (Entries.distinct_tables_iff.mpr fun t ht => ?_)
        rcases List.mem_append.mp ht with ht | ht
        · exact hbefore t ht
        · rw [List.mem_singleton.mp ht]
          exact h.opened
      next => cases hact
    · obtain ⟨⟨root, x⟩, hdescend, rfl⟩ := Option.map_eq_some_iff.mp hclose
      refine distinct_of_descend (fun hentries hact => ?_) h.root hdescend
      split at hact
      · cases hact
        exact hentries.put h.opened.item
      · cases hact

/-- A header opens a table of its own, or goes on with one that was implied, which is taken out. -/
theorem openTable (h : d.Distinct) {path : List String} {name : String}
    (hopen : d.openTable path name = some d') : d'.Distinct := by
  obtain ⟨root, hclose, hopen⟩ := Option.bind_eq_some_iff.mp hopen
  obtain ⟨⟨root', opened⟩, hdescend, hopen⟩ := Option.bind_eq_some_iff.mp hopen
  cases hopen
  suffices hboth : root'.Distinct ∧ Entries.Distinct opened from ⟨hboth.1, hboth.2⟩
  refine keeps_descend (fun hentries hact => ?_) path (h.close hclose) hdescend
  split at hact
  next =>
    cases hact
    exact ⟨hentries, Entries.distinct_nil⟩
  next sub hsub =>
    cases hact
    exact ⟨hentries.erase name, Entries.distinct_of_table (hentries.get? hsub)⟩
  next => cases hact

theorem openElement (h : d.Distinct) {path : List String} {name : String}
    (hopen : d.openElement path name = some d') : d'.Distinct := by
  obtain ⟨root, hclose, hopen⟩ := Option.bind_eq_some_iff.mp hopen
  obtain ⟨⟨root', x⟩, hdescend, hopen⟩ := Option.bind_eq_some_iff.mp hopen
  cases hopen
  refine ⟨distinct_of_descend (fun hentries hact => ?_) (h.close hclose) hdescend,
    Entries.distinct_nil⟩
  split at hact
  · cases hact
    exact hentries
  · cases hact
    exact hentries
  · cases hact

theorem add (h : d.Distinct) {path : List String} {name : String} {item : Item} (hitem : item.Distinct)
    (hadd : d.add path name item = some d') : d'.Distinct := by
  obtain ⟨opened, hopened, hadd⟩ := Option.bind_eq_some_iff.mp hadd
  cases hadd
  exact ⟨h.root, h.opened.addUnder hitem hopened⟩

theorem line? (h : d.Distinct) {cs rest : List Char} (hline : line? d cs = some (d', rest)) :
    d'.Distinct := by
  unfold Toml.line? at hline
  split at hline
  next =>
    obtain ⟨⟨⟨path, name⟩, rest⟩, -, hline⟩ := Option.bind_eq_some_iff.mp hline
    dsimp only at hline
    split at hline
    · obtain ⟨d'', hopen, hline⟩ := Option.bind_eq_some_iff.mp hline
      obtain ⟨rest, -, hline⟩ := Option.bind_eq_some_iff.mp hline
      cases hline
      exact h.openElement hopen
    · cases hline
  next =>
    obtain ⟨⟨⟨path, name⟩, rest⟩, -, hline⟩ := Option.bind_eq_some_iff.mp hline
    dsimp only at hline
    split at hline
    · obtain ⟨d'', hopen, hline⟩ := Option.bind_eq_some_iff.mp hline
      obtain ⟨rest, -, hline⟩ := Option.bind_eq_some_iff.mp hline
      cases hline
      exact h.openTable hopen
    · cases hline
  next =>
    split at hline
    · cases hline
      exact h
    · obtain ⟨⟨⟨path, name⟩, rest⟩, -, hline⟩ := Option.bind_eq_some_iff.mp hline
      dsimp only at hline
      split at hline
      · obtain ⟨⟨item, rest⟩, hvalue, hline⟩ := Option.bind_eq_some_iff.mp hline
        obtain ⟨d'', hadd, hline⟩ := Option.bind_eq_some_iff.mp hline
        obtain ⟨rest, -, hline⟩ := Option.bind_eq_some_iff.mp hline
        cases hline
        exact h.add (distinct_of_value? hvalue) hadd
      · cases hline

theorem lines? {n : Nat} : ∀ {d : Draft} {cs : List Char}, d.Distinct → Toml.lines? n d cs = some d' →
    d'.Distinct := by
  induction n with
  | zero =>
    intro d cs _ hlines
    cases hlines
  | succ n ih =>
    intro d cs h hlines
    cases cs with
    | nil =>
      cases hlines
      exact h
    | cons c cs =>
      unfold Toml.lines? at hlines
      split at hlines
      next d'' rest hline => exact ih (h.line? hline) hlines
      next => cases hlines

end Draft.Distinct

theorem distinct_of_document? {text : String} {entries : Entries} (h : document? text = some entries) :
    entries.Distinct := by
  obtain ⟨d, hlines, hclose⟩ := Option.bind_eq_some_iff.mp h
  exact (Draft.Distinct.new.lines? hlines).close hclose

end EchoLoad.Toml
