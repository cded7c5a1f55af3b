import EchoLoad.Arguments.Reader
import Mathlib.Data.List.TakeWhile

/-!
# Reading what was written

An option that is written in one word, `--name=value` or `--name`, takes effect as soon as it is read, so
the record after some of them is known from their names alone. `Grammar.Writes` says this of one option:
`image names` is the record once the options with these names were read, and the option takes it one name
further.

> `Grammar.read_written`: options that each stand once are read into the record with all their names,
> whatever their order.
> `Grammar.read_values`: the first free word and what follows are the values of the command, as they are.
-/

namespace EchoLoad.Arguments

variable {α β : Type}

/-! ## Shapes of words -/

/-- An option in one word: its long name, and the value behind `=`. -/
structure Written where
  name : String
  value : Option String
deriving DecidableEq, Repr

/-- The word of an option. -/
def Written.word (w : Written) : String :=
  match w.value with
  | none => "--" ++ w.name
  | some text => "--" ++ w.name ++ "=" ++ text

/-- A name that a word can carry: there is something of it, and nothing of it is taken for the mark in
front of a value. -/
structure IsName (name : String) : Prop where
  ne_nil : name.toList ≠ []
  unmarked : '=' ∉ name.toList

instance (name : String) : Decidable (IsName name) :=
  decidable_of_iff (name.toList ≠ [] ∧ '=' ∉ name.toList)
    ⟨fun h => ⟨h.1, h.2⟩, fun h => ⟨h.ne_nil, h.unmarked⟩⟩

/-- Two hyphens with something behind them are an option with a long name. -/
theorem Shape.of_long {word : String} {rest : List Char} (hword : word.toList = '-' :: '-' :: rest)
    (hrest : rest ≠ []) :
    Shape.of word = .long (String.ofList (rest.takeWhile (· ≠ '=')))
      ((rest.dropWhile (· ≠ '=')).tail?.map String.ofList) := by
  unfold Shape.of
  rw [hword]
  cases rest with
  | nil => exact absurd rfl hrest
  | cons c rest =>
    simp only
    cases (c :: rest).dropWhile (· ≠ '=') <;> rfl

theorem Shape.of_written {w : Written} (hname : IsName w.name) : Shape.of w.word = .long w.name w.value := by
  obtain ⟨name, value⟩ := w
  have hfree : ∀ c ∈ name.toList, (decide (c ≠ '=')) = true := fun c hc =>
    decide_eq_true fun h => hname.unmarked (h ▸ hc)
  cases value with
  | none =>
    have hword : (Written.word ⟨name, none⟩).toList = '-' :: '-' :: name.toList := by
      simp [Written.word]
    rw [Shape.of_long hword hname.ne_nil, List.takeWhile_eq_self_iff.mpr hfree,
      List.dropWhile_eq_nil_iff.mpr hfree, String.ofList_toList]
    rfl
  | some text =>
    have hword : (Written.word ⟨name, some text⟩).toList =
        '-' :: '-' :: (name.toList ++ '=' :: text.toList) := by
      simp [Written.word]
    rw [Shape.of_long hword (by simp), List.takeWhile_append_of_pos hfree,
      List.dropWhile_append_of_pos hfree, List.takeWhile_cons_of_neg (by simp),
      List.dropWhile_cons_of_neg (by simp), List.append_nil, String.ofList_toList]
    simp

/-- Only a word that is written as an option looks like one with a long name. -/
theorem Shape.eq_word {word name : String} {value : Option String} (h : Shape.of word = .long name value) :
    word = Written.word ⟨name, value⟩ := by
  unfold Shape.of at h
  split at h
  · cases h
  next rest _ hword =>
    have hcut := List.takeWhile_append_dropWhile (p := (· ≠ '=')) (l := rest)
    rw [← String.toList_inj, hword]
    dsimp only at h
    split at h
    next hdrop =>
      cases h
      rw [hdrop, List.append_nil] at hcut
      simp only [Written.word, String.toList_append, String.toList_ofList, hcut]
      rfl
    next c text hdrop =>
      cases h
      have hfirst := List.head?_dropWhile_not (· ≠ '=') rest
      rw [hdrop] at hfirst hcut
      obtain rfl : c = '=' := by simpa using hfirst
      simp only [Written.word, String.toList_append, String.toList_ofList, List.append_assoc]
      exact congrArg ('-' :: '-' :: ·) hcut.symm
  · cases h
  · cases h

theorem Shape.eq_cluster {word : String} {chars : List Char} (h : Shape.of word = .cluster chars) :
    chars ≠ [] ∧ word = String.ofList ('-' :: chars) := by
  unfold Shape.of at h
  split at h
  · cases h
  · dsimp only at h
    split at h <;> cases h
  next hword =>
    cases h
    exact ⟨List.cons_ne_nil _ _, by rw [← String.toList_inj, hword, String.toList_ofList]⟩
  · cases h

/-- A word without a hyphen in front stands on its own. -/
theorem Shape.of_plain {word : String} (h : word.toList.head? ≠ some '-') : Shape.of word = .plain := by
  unfold Shape.of
  split <;> simp_all

/-! ## Options take effect -/

theorem Grammar.long_of_long? {g : Grammar α} {name : String} {o : Named α} (h : g.long? name = some o) :
    o.long = name := by
  have hfound := List.find?_some h
  exact of_decide_eq_true hfound

/-- What an option with its value, or without one, makes of a record. -/
inductive Effect.Yields : Effect α → Option String → α → α → Prop
  | value {set : String → α → Except Refusal α} {text : String} {before after : α}
      (h : set text before = .ok after) : Yields (.value set) (some text) before after
  | values {add : String → α → Except Refusal α} {text : String} {before after : α}
      (h : add text before = .ok after) : Yields (.values add) (some text) before after
  | flag (set : α → α) (before : α) : Yields (.flag set) none before (set before)

theorem Effect.Yields.reading {read : String → Except Refusal β} {text : String} {x : β}
    (h : read text = .ok x) (long : String) (short : Option Char) (put : β → α → α) (before : α) :
    (Named.reading long short read put).effect.Yields (some text) before (put x before) := by
  refine .value ?_
  rw [h]
  rfl

theorem Effect.Yields.takesValue {o : Named α} {value : Option String} {before after : α}
    (h : o.effect.Yields value before after) : o.takesValue = value.isSome := by
  obtain ⟨long, short, effect⟩ := o
  cases h <;> rfl

namespace Reading

theorem settle_idle {g : Grammar α} {r : Reading α} (h : r.pending = .nothing) : r.settle g = .ok r := by
  obtain ⟨record, seen, pending, given, trailing⟩ := r
  cases h
  rfl

theorem carryOut_yields {r : Reading α} {o : Named α} {value : Option String} {after : α}
    (h : o.effect.Yields value r.record after) (hnew : o.long ∉ r.seen) :
    r.carryOut o (value.getD "") = .ok { r with record := after, seen := o.long :: r.seen } := by
  obtain ⟨long, short, effect⟩ := o
  cases h with
  | value h => simp only [carryOut, Option.getD_some, h, if_neg hnew]
  | values h => simp only [carryOut, Option.getD_some, h]
  | flag set => simp only [carryOut, if_neg hnew]

/-- An option in one word takes effect when nothing else is pending. -/
theorem step_written {g : Grammar α} {r : Reading α} {w : Written} {o : Named α} (hname : IsName w.name)
    (hoption : g.long? w.name = some o) (htakes : o.takesValue = w.value.isSome)
    (hidle : r.pending = .nothing) (hopen : r.trailing = false) :
    r.step g w.word = r.carryOut o (w.value.getD "") := by
  have hreact (value : String) : r.react g o value = r.carryOut o value := by
    rw [react, settle_idle hidle]
  rw [step, hopen, if_neg Bool.false_ne_true, Shape.of_written hname]
  dsimp only
  rw [readLong, hoption]
  dsimp only
  cases hvalue : w.value with
  | none =>
    rw [hvalue] at htakes
    simp only [htakes, Option.isSome_none, hreact, Option.getD_none]
  | some value =>
    rw [hvalue] at htakes
    simp only [htakes, Option.isSome_some, hreact, Option.getD_some]

/-- A reading between two options: nothing is pending, and no value was given. -/
def idle (record : α) (seen : List String) : Reading α := ⟨record, seen, .nothing, false, false⟩

end Reading

/-- An option, as it is written, takes the image of the names before it to the image with its own. -/
structure Grammar.Writes (g : Grammar α) (image : List String → α) (w : Written) : Prop where
  isName : IsName w.name
  takes : ∃ o, g.long? w.name = some o ∧
    ∀ seen, w.name ∉ seen → o.effect.Yields w.value (image seen) (image (w.name :: seen))

namespace Reading

theorem step_writes {g : Grammar α} {image : List String → α} {w : Written} {seen : List String}
    (h : g.Writes image w) (hnew : w.name ∉ seen) :
    (idle (image seen) seen).step g w.word = .ok (idle (image (w.name :: seen)) (w.name :: seen)) := by
  obtain ⟨o, hoption, hyields⟩ := h.takes
  have hlong := Grammar.long_of_long? hoption
  have hyields := hyields seen hnew
  rw [step_written h.isName hoption hyields.takesValue rfl rfl,
    carryOut_yields (r := idle (image seen) seen) hyields (by rwa [hlong]), hlong]
  rfl

/-- Behind a name that does not come again, names that were new are still new. -/
theorem forall_new_cons {γ : Type} {name : γ → String} {x : γ} {xs : List γ} {seen : List String}
    (hfirst : name x ∉ xs.map name) (hnew : ∀ y ∈ xs, name y ∉ seen) :
    ∀ y ∈ xs, name y ∉ name x :: seen := by
  intro y hy hmem
  rcases List.mem_cons.mp hmem with heq | hmem
  · exact hfirst (heq ▸ List.mem_map_of_mem hy)
  · exact hnew y hy hmem

theorem steps_writes {g : Grammar α} {image : List String → α} {ws : List Written}
    (h : ∀ w ∈ ws, g.Writes image w) (hnodup : (ws.map Written.name).Nodup) :
    ∀ seen : List String, (∀ w ∈ ws, w.name ∉ seen) →
      steps g (ws.map Written.word) (idle (image seen) seen) =
        let names := (ws.map Written.name).reverse ++ seen
        .ok (idle (image names) names) := by
  induction ws with
  | nil =>
    intro seen _
    rfl
  | cons w ws ih =>
    intro seen hnew
    obtain ⟨hw, hws⟩ := List.forall_mem_cons.mp h
    obtain ⟨hfresh, hrest⟩ := List.nodup_cons.mp hnodup
    obtain ⟨hnew, hlater⟩ := List.forall_mem_cons.mp hnew
    have hstill := forall_new_cons hfresh hlater
    simp only [List.map_cons, steps, step_writes hw hnew, ih hws hrest _ hstill, List.reverse_cons,
      List.append_assoc, List.cons_append, List.nil_append]

end Reading

/-- Options that each stand once are read into the image of all their names. -/
theorem Grammar.read_written {g : Grammar α} {image : List String → α} {ws : List Written}
    (hbare : g.positional = none) (h : ∀ w ∈ ws, g.Writes image w)
    (hnodup : (ws.map Written.name).Nodup) :
    g.read (image []) (ws.map Written.word) = .ok (image (ws.map Written.name).reverse) := by
  have hsteps := Reading.steps_writes h hnodup [] fun _ _ => List.not_mem_nil
  rw [List.append_nil] at hsteps
  have hstart : Reading.start (image []) = Reading.idle (image []) [] := rfl
  rw [read, hstart, hsteps]
  simp only [Reading.finish, Reading.settle, Reading.idle, hbare]

/-! ## Values of the command -/

namespace Reading

/-- A word that is no option joins the values before it. -/
theorem step_value {g : Grammar α} {p : Positional α} {r : Reading α} {word : String}
    {front : List String} (hvalues : g.positional = some p) (hmany : p.many = true)
    (hpending : r.pending = .values front) (hverbatim : r.trailing = p.verbatim)
    (hfree : p.verbatim = true ∨ word.toList.head? ≠ some '-') :
    r.step g word = .ok { r with pending := .values (front ++ [word]) } := by
  have hpush : r.push g word = .ok { r with pending := .values (front ++ [word]) } := by
    rw [push, hvalues]
    simp only [hmany, hpending, hverbatim, Bool.not_true, Bool.and_false, Bool.false_eq_true, if_false,
      Bool.or_self]
  rw [step]
  by_cases htrailing : r.trailing = true
  · rw [if_pos htrailing, hpush]
  · have hplain : word.toList.head? ≠ some '-' := hfree.resolve_left (hverbatim ▸ htrailing)
    rw [if_neg htrailing, Shape.of_plain hplain]
    simp only [take, hpending, hpush]

theorem steps_values {g : Grammar α} {p : Positional α} (hvalues : g.positional = some p)
    (hmany : p.many = true) {words : List String}
    (hfree : p.verbatim = true ∨ ∀ word ∈ words, word.toList.head? ≠ some '-') :
    ∀ {r : Reading α} {front : List String}, r.pending = .values front → r.trailing = p.verbatim →
      steps g words r = .ok { r with pending := .values (front ++ words) } := by
  induction words with
  | nil =>
    intro r front hpending _
    rw [List.append_nil, ← hpending]
    rfl
  | cons word words ih =>
    intro r front hpending hverbatim
    have hword : p.verbatim = true ∨ word.toList.head? ≠ some '-' :=
      hfree.imp_right fun h => h word List.mem_cons_self
    have hwords : p.verbatim = true ∨ ∀ word ∈ words, word.toList.head? ≠ some '-' :=
      hfree.imp_right fun h w hw => h w (List.mem_cons_of_mem word hw)
    have hrest := ih hwords (r := { r with pending := .values (front ++ [word]) }) rfl hverbatim
    simp only [steps, step_value hvalues hmany hpending hverbatim hword, hrest, List.append_assoc,
      List.cons_append, List.nil_append]

/-- The first free word is a value, and verbatim values end the options. -/
theorem push_first {g : Grammar α} {p : Positional α} {record : α} {seen : List String} {trailing : Bool}
    (hvalues : g.positional = some p) (word : String) :
    push g ⟨record, seen, .nothing, false, trailing⟩ word =
      .ok ⟨record, seen, .values [word], true, trailing || p.verbatim⟩ := by
  simp only [push, settle, hvalues, Bool.false_and, Bool.false_eq_true, if_false]

theorem finish_values {g : Grammar α} {p : Positional α} {r : Reading α} {words : List String}
    (hvalues : g.positional = some p) (hpending : r.pending = .values words) (hgiven : r.given = true) :
    r.finish g = p.set words r.record := by
  simp only [finish, settle, hvalues, hpending, hgiven, Bool.not_true, Bool.and_false, Bool.false_eq_true,
    if_false]
  cases p.set words r.record <;> rfl

end Reading

/-- The values of a command are what its words are from the first one on. -/
theorem Grammar.read_values {g : Grammar α} {p : Positional α} (hvalues : g.positional = some p)
    {word : String} {words : List String} (hword : word.toList.head? ≠ some '-')
    (hmany : words = [] ∨ p.many = true)
    (hfree : p.verbatim = true ∨ ∀ word ∈ words, word.toList.head? ≠ some '-') (record : α) :
    g.read record (word :: words) = p.set (word :: words) record := by
  have hstep : (Reading.start record).step g word = .ok ⟨record, [], .values [word], true, p.verbatim⟩ := by
    rw [Reading.step, Reading.start, if_neg Bool.false_ne_true, Shape.of_plain hword]
    exact Reading.push_first hvalues word
  have hsteps : Reading.steps g (word :: words) (.start record) =
      .ok ⟨record, [], .values (word :: words), true, p.verbatim⟩ := by
    rw [Reading.steps, hstep]
    rcases hmany with rfl | hmany
    · rfl
    · exact Reading.steps_values hvalues hmany hfree
        (r := ⟨record, [], .values [word], true, p.verbatim⟩) rfl rfl
  rw [read, hsteps]
  exact Reading.finish_values hvalues rfl rfl

end EchoLoad.Arguments
