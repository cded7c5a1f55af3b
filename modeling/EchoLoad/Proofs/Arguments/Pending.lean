import EchoLoad.Proofs.Arguments.Reading

/-!
# Values in words of their own

An option and its value may stand in two words. The option then waits, and with its value it is pending
until something else comes.

> `Reading.run_awaiting`: an option that waits gets the very next word, or the reading ends badly.
> `Reading.step_cases`: as long as options may come, what a word does rests on the grammar alone.
> `Reading.run_valued`: that an option is pending makes no difference to words that are read to their end; it
> could have taken effect at once.
> `Reading.run_values`: behind the first free word of a command that takes its words verbatim, every word
> is a value.
-/

namespace EchoLoad.Arguments

variable {α β : Type}

namespace Reading

/-- Read words to their end. -/
def run (g : Grammar α) (words : List String) (r : Reading α) : Except Refusal α :=
  match steps g words r with
  | .error e => .error e
  | .ok r => r.finish g

theorem run_cons {g : Grammar α} {word : String} {words : List String} {r r' : Reading α}
    (h : r.step g word = .ok r') : run g (word :: words) r = run g words r' := by
  unfold run
  rw [steps, h]

theorem run_cons_eq_ok {g : Grammar α} {word : String} {words : List String} {r : Reading α} {x : α} :
    run g (word :: words) r = .ok x ↔ ∃ r', r.step g word = .ok r' ∧ run g words r' = .ok x := by
  unfold run
  rw [steps]
  cases r.step g word with
  | error e => simp
  | ok r' => simp

/-- What an option does rests on the record and the names seen, and changes nothing else. -/
theorem carryOut_eq_ok {r r' : Reading α} {o : Named α} {value : String} (h : r.carryOut o value = .ok r')
    (pending : Pending α) (given trailing : Bool) :
    carryOut ⟨r.record, r.seen, pending, given, trailing⟩ o value =
      .ok ⟨r'.record, r'.seen, pending, given, trailing⟩ := by
  obtain ⟨long, short, effect⟩ := o
  cases effect with
  | value set =>
    simp only [carryOut] at h ⊢
    split at h
    · cases h
    next hnew =>
      split at h
      · cases h
      next =>
        cases h
        simp only [if_neg hnew]
  | values add =>
    simp only [carryOut] at h ⊢
    split at h
    · cases h
    next =>
      cases h
      simp only
  | flag set =>
    simp only [carryOut] at h ⊢
    split at h
    · cases h
    next hnew =>
      cases h
      simp only [if_neg hnew]
  | halt refusal => cases h

theorem carryOut_value {r r' : Reading α} {o : Named α} {set : String → α → Except Refusal α}
    {value : String} (heffect : o.effect = .value set) (h : r.carryOut o value = .ok r') :
    o.long ∉ r.seen ∧ ∃ after, set value r.record = .ok after ∧
      r' = { r with record := after, seen := o.long :: r.seen } := by
  unfold carryOut at h
  rw [heffect] at h
  simp only at h
  split at h
  · cases h
  next hnew =>
    refine ⟨hnew, ?_⟩
    split at h
    · cases h
    next after hset =>
      cases h
      exact ⟨after, hset, rfl⟩

/-- An option that reads its value took effect: it is new, and its value could be read. -/
theorem carryOut_reading {r r' : Reading α} {long : String} {short : Option Char}
    {read : String → Except Refusal β} {put : β → α → α} {value : String}
    (h : r.carryOut (.reading long short read put) value = .ok r') :
    long ∉ r.seen ∧ ∃ y, read value = .ok y ∧
      r' = { r with record := put y r.record, seen := long :: r.seen } := by
  obtain ⟨hnew, after, hset, rfl⟩ := carryOut_value rfl h
  refine ⟨hnew, ?_⟩
  cases hread : read value with
  | error e =>
    rw [hread] at hset
    cases hset
  | ok y =>
    rw [hread] at hset
    cases hset
    exact ⟨y, rfl, rfl⟩

section

variable {g : Grammar α} {r r' r₀ : Reading α} {o : Named α} {value : String}

/-- After an option with its value took effect nothing is pending, and the rest of the reading is as it
was. -/
theorem settle_valued (hpending : r.pending = .valued o value) (h : r.settle g = .ok r₀) :
    r₀ = ⟨r₀.record, r₀.seen, .nothing, r.given, r.trailing⟩ := by
  have hsettle : carryOut ⟨r.record, r.seen, .nothing, r.given, r.trailing⟩ o value = .ok r₀ := by
    unfold settle at h
    rw [hpending] at h
    exact h
  have hsame := carryOut_eq_ok hsettle .nothing r.given r.trailing
  rw [hsettle] at hsame
  exact Except.ok.inj hsame

theorem settle_settled (hpending : r.pending = .valued o value) (h : r.settle g = .ok r₀) :
    r₀.settle g = .ok r₀ := by
  rw [settle_valued hpending h]
  exact settle_idle rfl

/-- A step that goes well while an option with its value is pending: the option takes effect first. -/
def Settled (g : Grammar α) (r r' : Reading α) (act : Reading α → Except Refusal (Reading α)) : Prop :=
  ∃ r₀, r.settle g = .ok r₀ ∧ act r₀ = .ok r'

/-- What settles first goes well only if settling does, and then as it would from the settled reading. -/
theorem settled_iff (act : Reading α → Except Refusal (Reading α))
    (hfails : ∀ e, r.settle g = .error e → ∃ e', act r = .error e')
    (hsame : ∀ r₀, r.settle g = .ok r₀ → act r = act r₀) : act r = .ok r' ↔ Settled g r r' act := by
  cases hsettle : r.settle g with
  | error e =>
    obtain ⟨e', hact⟩ := hfails e hsettle
    simp [Settled, hact, hsettle]
  | ok r₀ => simp [Settled, hsame r₀ hsettle, hsettle]

/-- What goes on behind a settled step goes on behind the settled reading. -/
theorem exists_settled_iff {act : Reading α → Except Refusal (Reading α)} {goesOn : Reading α → Prop} :
    (∃ r₁, Settled g r r₁ act ∧ goesOn r₁) ↔
      ∃ r₀, r.settle g = .ok r₀ ∧ ∃ r₁, act r₀ = .ok r₁ ∧ goesOn r₁ := by
  constructor
  · rintro ⟨r₁, ⟨r₀, hsettle, hact⟩, h⟩
    exact ⟨r₀, hsettle, r₁, hact, h⟩
  · rintro ⟨r₀, hsettle, r₁, hact, h⟩
    exact ⟨r₁, ⟨r₀, hsettle, hact⟩, h⟩

theorem react_valued (hpending : r.pending = .valued o value) (o' : Named α) (text : String) :
    r.react g o' text = .ok r' ↔ Settled g r r' (react g · o' text) := by
  refine settled_iff (react g · o' text) (fun e hsettle => ⟨e, ?_⟩) fun r₀ hsettle => ?_
  · simp only [react, hsettle]
  · simp only [react, hsettle, settle_settled hpending hsettle]

theorem await_valued (hpending : r.pending = .valued o value) (o' : Named α) :
    r.await g o' = .ok r' ↔ Settled g r r' (await g · o') := by
  refine settled_iff (await g · o') (fun e hsettle => ⟨e, ?_⟩) fun r₀ hsettle => ?_
  · simp only [await, hsettle]
  · simp only [await, hsettle, settle_settled hpending hsettle]

theorem push_valued (hpending : r.pending = .valued o value) (word : String) :
    r.push g word = .ok r' ↔ Settled g r r' (push g · word) := by
  refine settled_iff (push g · word) (fun e hsettle => ?_) fun r₀ hsettle => ?_
  · simp only [push, hpending, hsettle]
    split
    · exact ⟨_, rfl⟩
    · split <;> exact ⟨_, rfl⟩
  · have hidle := settle_valued hpending hsettle
    simp only [push, hpending, hsettle]
    rw [hidle]
    simp only [settle]

/-- An option with its value does not take another one, so the word is a value of the command. -/
theorem take_valued (hpending : r.pending = .valued o value) (word : String) :
    r.take g word = .ok r' ↔ Settled g r r' (take g · word) := by
  have htake : r.take g word = r.push g word := by simp only [take, hpending]
  rw [htake, push_valued hpending]
  refine exists_congr fun r₀ => and_congr_right fun hsettle => ?_
  rw [settle_valued hpending hsettle]
  simp only [take]

/-- What a long name does rests on the grammar alone. -/
theorem readLong_cases (g : Grammar α) (word name : String) (text : Option String) :
    (∃ e, ∀ r, readLong g r word name text = .error e) ∨
      (∀ r, readLong g r word name text = r.take g word) ∨
      (∃ o text', ∀ r, readLong g r word name text = r.react g o text') ∨
      ∃ o, ∀ r, readLong g r word name text = r.await g o := by
  unfold readLong
  cases g.long? name with
  | none =>
    cases g.isVerbatim with
    | true => exact .inr (.inl fun _ => rfl)
    | false => exact .inl ⟨_, fun _ => rfl⟩
  | some o =>
    dsimp only
    cases o.takesValue with
    | true =>
      cases text with
      | some text => exact .inr (.inr (.inl ⟨o, text, fun _ => rfl⟩))
      | none => exact .inr (.inr (.inr ⟨o, fun _ => rfl⟩))
    | false =>
      cases text with
      | some text => exact .inl ⟨_, fun _ => rfl⟩
      | none => exact .inr (.inr (.inl ⟨o, "", fun _ => rfl⟩))

/-- What the first of some short names does rests on the grammar alone. -/
theorem readCluster_cases (g : Grammar α) (c : Char) (chars : List Char) :
    (∃ e, ∀ r, readCluster g r (c :: chars) = .error e) ∨
      (∃ o, ∀ r, readCluster g r (c :: chars) = r.await g o) ∨
      (∃ o text, ∀ r, readCluster g r (c :: chars) = r.react g o text) ∨
      ∃ o, ∀ r r', readCluster g r (c :: chars) = .ok r' ↔
        ∃ r₁, r.react g o "" = .ok r₁ ∧ readCluster g r₁ chars = .ok r' := by
  unfold readCluster
  cases g.short? c with
  | none => exact .inl ⟨_, fun _ => rfl⟩
  | some o =>
    dsimp only
    cases o.takesValue with
    | true =>
      simp only [if_true]
      split
      · exact .inr (.inl ⟨o, fun _ => rfl⟩)
      · exact .inr (.inr (.inl ⟨o, _, fun _ => rfl⟩))
      · exact .inr (.inr (.inl ⟨o, _, fun _ => rfl⟩))
    | false =>
      refine .inr (.inr (.inr ⟨o, fun r r' => ?_⟩))
      cases r.react g o "" with
      | error e => simp
      | ok r₁ => cases chars <;> simp [readCluster]

theorem readLong_valued (hpending : r.pending = .valued o value) (word name : String)
    (text : Option String) :
    r.readLong g word name text = .ok r' ↔ Settled g r r' (readLong g · word name text) := by
  rcases readLong_cases g word name text with ⟨e, h⟩ | h | ⟨o', text', h⟩ | ⟨o', h⟩
  · simp [h, Settled]
  · simp only [h]
    exact take_valued hpending word
  · simp only [h]
    exact react_valued hpending o' text'
  · simp only [h]
    exact await_valued hpending o'

theorem readCluster_valued (hpending : r.pending = .valued o value) (c : Char) (chars : List Char) :
    r.readCluster g (c :: chars) = .ok r' ↔ Settled g r r' (readCluster g · (c :: chars)) := by
  rcases readCluster_cases g c chars with ⟨e, h⟩ | ⟨o', h⟩ | ⟨o', text, h⟩ | ⟨o', h⟩
  · simp [h, Settled]
  · simp only [h]
    exact await_valued hpending o'
  · simp only [h]
    exact react_valued hpending o' text
  · rw [Settled]
    simp only [h, react_valued hpending]
    exact exists_settled_iff

theorem step_trailing (htrailing : r.trailing = true) (word : String) : r.step g word = r.push g word := by
  rw [step, if_pos htrailing]

theorem step_separator (hopen : r.trailing = false) {word : String} (hshape : Shape.of word = .separator) :
    r.step g word = .ok { r with trailing := true } := by
  simp only [step, hopen, hshape, Bool.false_eq_true, if_false]

/-- As long as options may come, what a word does that is no separator rests on the grammar alone. -/
theorem step_cases (g : Grammar α) {word : String} (hshape : Shape.of word ≠ .separator) :
    (∀ r : Reading α, r.trailing = false → r.step g word = r.take g word) ∨
      (∃ name text, ∀ r : Reading α, r.trailing = false → r.step g word = r.readLong g word name text) ∨
      ∃ c chars, ∀ r : Reading α, r.trailing = false → r.step g word = r.readCluster g (c :: chars) := by
  cases h : Shape.of word with
  | separator => exact absurd h hshape
  | plain =>
    refine .inl fun r hopen => ?_
    rw [step, if_neg (Bool.eq_false_iff.mp hopen), h]
  | long name text =>
    refine .inr (.inl ⟨name, text, fun r hopen => ?_⟩)
    rw [step, if_neg (Bool.eq_false_iff.mp hopen), h]
  | cluster chars =>
    obtain ⟨c, chars, rfl⟩ := List.exists_cons_of_ne_nil (Shape.eq_cluster h).1
    cases hunknown : g.isVerbatim && (c :: chars).any fun c => (g.short? c).isNone with
    | true =>
      refine .inl fun r hopen => ?_
      rw [step, if_neg (Bool.eq_false_iff.mp hopen), h]
      exact if_pos hunknown
    | false =>
      refine .inr (.inr ⟨c, chars, fun r hopen => ?_⟩)
      rw [step, if_neg (Bool.eq_false_iff.mp hopen), h]
      exact if_neg (Bool.eq_false_iff.mp hunknown)

/-- Only the separator leaves the option pending. -/
theorem step_valued (hpending : r.pending = .valued o value) {word : String}
    (hword : r.trailing = true ∨ Shape.of word ≠ .separator) :
    r.step g word = .ok r' ↔ Settled g r r' (step g · word) := by
  -- settling leaves `trailing` as it is, so both readings take the same branch
  have hact (act : Reading α → Except Refusal (Reading α))
      (hstep : ∀ r₀ : Reading α, r₀.trailing = r.trailing → r₀.step g word = act r₀)
      (hvalued : act r = .ok r' ↔ Settled g r r' act) :
      r.step g word = .ok r' ↔ Settled g r r' (step g · word) := by
    rw [hstep r rfl, hvalued]
    refine exists_congr fun r₀ => and_congr_right fun hsettle => ?_
    show act r₀ = .ok r' ↔ r₀.step g word = .ok r'
    rw [hstep r₀ (by rw [settle_valued hpending hsettle])]
  cases htrailing : r.trailing with
  | true =>
    exact hact (push g · word) (fun r₀ h => step_trailing (h.trans htrailing) word)
      (push_valued hpending word)
  | false =>
    have hshape : Shape.of word ≠ .separator := hword.resolve_left (htrailing ▸ Bool.false_ne_true)
    rcases step_cases g hshape with h | ⟨name, text, h⟩ | ⟨c, chars, h⟩
    · exact hact (take g · word) (fun r₀ h₀ => h r₀ (h₀.trans htrailing)) (take_valued hpending word)
    · exact hact (readLong g · word name text) (fun r₀ h₀ => h r₀ (h₀.trans htrailing))
        (readLong_valued hpending word name text)
    · exact hact (readCluster g · (c :: chars)) (fun r₀ h₀ => h r₀ (h₀.trans htrailing))
        (readCluster_valued hpending c chars)

theorem settle_trailing (hpending : r.pending = .valued o value) (hsettle : r.settle g = .ok r₀)
    (trailing : Bool) :
    settle g { r with trailing := trailing } = .ok { r₀ with trailing := trailing } := by
  have hidle := settle_valued hpending hsettle
  unfold settle at hsettle ⊢
  rw [hpending] at hsettle ⊢
  have hsame := carryOut_eq_ok hsettle .nothing r.given trailing
  rw [hidle]
  exact hsame

/-- That an option is pending makes no difference to words that are read to their end: it could have taken
effect at once. -/
theorem run_valued {words : List String} {x : α} :
    ∀ {r : Reading α}, r.pending = .valued o value →
      (run g words r = .ok x ↔ ∃ r₀, r.settle g = .ok r₀ ∧ run g words r₀ = .ok x) := by
  induction words with
  | nil =>
    intro r hpending
    cases hsettle : r.settle g with
    | error e => simp [run, steps, finish, hsettle]
    | ok r₀ =>
      have hgiven : r₀.given = r.given := by rw [settle_valued hpending hsettle]
      simp [run, steps, finish, hsettle, settle_settled hpending hsettle, hgiven]
  | cons word words ih =>
    intro r hpending
    by_cases hword : r.trailing = true ∨ Shape.of word ≠ .separator
    · simp only [run_cons_eq_ok, step_valued hpending hword]
      exact exists_settled_iff
    · -- the option is pending still, so it takes effect later and would do the same now
      obtain ⟨hopen, hshape⟩ := not_or.mp hword
      have hopen := Bool.eq_false_iff.mpr hopen
      have hshape := not_not.mp hshape
      rw [run_cons (step_separator hopen hshape), ih (r := { r with trailing := true }) hpending]
      constructor
      · rintro ⟨r₁, hsettle, hrun⟩
        have hr₁ := settle_valued (r := { r with trailing := true }) hpending hsettle
        refine ⟨{ r₁ with trailing := r.trailing }, settle_trailing (r := { r with trailing := true }) hpending hsettle r.trailing, ?_⟩
        rw [run_cons (step_separator (r := { r₁ with trailing := r.trailing }) hopen hshape)]
        rw [hr₁] at hrun ⊢
        exact hrun
      · rintro ⟨r₀, hsettle, hrun⟩
        have hopen₀ : r₀.trailing = false := by rw [settle_valued hpending hsettle, hopen]
        rw [run_cons (step_separator hopen₀ hshape)] at hrun
        exact ⟨_, settle_trailing hpending hsettle true, hrun⟩

theorem settle_awaiting (hpending : r.pending = .awaiting o) : r.settle g = .error .invalidValue := by
  unfold settle
  rw [hpending]

theorem take_awaiting (hpending : r.pending = .awaiting o) (word : String) :
    r.take g word = .ok { r with pending := .valued o word } := by
  unfold take
  rw [hpending]

theorem push_awaiting (hpending : r.pending = .awaiting o) {word : String} :
    r.push g word ≠ .ok r' := by
  intro h
  unfold push at h
  rw [hpending, settle_awaiting hpending] at h
  split at h
  · cases h
  · split at h <;> cases h

theorem react_awaiting (hpending : r.pending = .awaiting o) {o' : Named α} {text : String} :
    r.react g o' text ≠ .ok r' := by
  intro h
  rw [react, settle_awaiting hpending] at h
  cases h

theorem await_awaiting (hpending : r.pending = .awaiting o) {o' : Named α} : r.await g o' ≠ .ok r' := by
  intro h
  rw [await, settle_awaiting hpending] at h
  cases h

theorem readLong_awaiting (hpending : r.pending = .awaiting o) {word name : String} {text : Option String}
    (h : r.readLong g word name text = .ok r') : r.take g word = .ok r' := by
  rcases readLong_cases g word name text with ⟨e, hlong⟩ | hlong | ⟨o', text', hlong⟩ | ⟨o', hlong⟩
  · cases (hlong r).symm.trans h
  · exact (hlong r).symm.trans h
  · exact absurd ((hlong r).symm.trans h) (react_awaiting hpending)
  · exact absurd ((hlong r).symm.trans h) (await_awaiting hpending)

theorem readCluster_awaiting (hpending : r.pending = .awaiting o) {c : Char} {chars : List Char} :
    r.readCluster g (c :: chars) ≠ .ok r' := by
  intro h
  rcases readCluster_cases g c chars with ⟨e, hcluster⟩ | ⟨o', hcluster⟩ | ⟨o', text, hcluster⟩ | ⟨o', hcluster⟩
  · cases (hcluster r).symm.trans h
  · exact await_awaiting hpending ((hcluster r).symm.trans h)
  · exact react_awaiting hpending ((hcluster r).symm.trans h)
  · obtain ⟨r₁, hreact, -⟩ := (hcluster r r').mp h
    exact react_awaiting hpending hreact

/-- An option that waits for its value takes a word that is no option, and stops at any other but the
separator. -/
theorem step_awaiting (hpending : r.pending = .awaiting o) {word : String} (h : r.step g word = .ok r') :
    r.trailing = false ∧ (r' = { r with pending := .valued o word } ∨ r' = { r with trailing := true }) := by
  by_cases htrailing : r.trailing = true
  · exact absurd ((step_trailing htrailing word).symm.trans h) (push_awaiting hpending)
  · have hopen := Bool.eq_false_iff.mpr htrailing
    refine ⟨hopen, ?_⟩
    by_cases hshape : Shape.of word = .separator
    · rw [step_separator hopen hshape] at h
      cases h
      exact .inr rfl
    · have htake : r.take g word = .ok r' := by
        rcases step_cases g hshape with hstep | ⟨name, text, hstep⟩ | ⟨c, chars, hstep⟩
        · exact (hstep r hopen).symm.trans h
        · exact readLong_awaiting hpending ((hstep r hopen).symm.trans h)
        · exact absurd ((hstep r hopen).symm.trans h) (readCluster_awaiting hpending)
      rw [take_awaiting hpending] at htake
      cases htake
      exact .inl rfl

/-- An option that waits for its value gets the next word, or the reading ends badly. -/
theorem run_awaiting {words : List String} {x : α} :
    ∀ {r : Reading α}, r.pending = .awaiting o → run g words r = .ok x →
      r.trailing = false ∧ ∃ value rest, words = value :: rest ∧
        run g rest { r with pending := .valued o value } = .ok x := by
  induction words with
  | nil =>
    intro r hpending h
    simp only [run, steps, finish, settle_awaiting hpending] at h
    cases h
  | cons word words ih =>
    intro r hpending h
    obtain ⟨r', hstep, hrun⟩ := run_cons_eq_ok.mp h
    obtain ⟨hopen, rfl | rfl⟩ := step_awaiting hpending hstep
    · exact ⟨hopen, word, words, rfl, hrun⟩
    · -- behind the separator no word can be the value
      have hopen := (ih (r := { r with trailing := true }) hpending hrun).1
      cases hopen

end

/-- The words behind the first value of a command that takes its words verbatim. -/
theorem run_values {g : Grammar α} {p : Positional α} (hvalues : g.positional = some p)
    (hmany : p.many = true) (hverbatim : p.verbatim = true) (record : α) (seen front words : List String) :
    run g words ⟨record, seen, .values front, true, true⟩ = p.set (front ++ words) record := by
  have hsteps : steps g words ⟨record, seen, .values front, true, true⟩ =
      .ok ⟨record, seen, .values (front ++ words), true, true⟩ :=
    steps_values hvalues hmany (.inl hverbatim) (r := ⟨record, seen, .values front, true, true⟩) rfl
      hverbatim.symm
  rw [run, hsteps]
  exact finish_values hvalues rfl rfl

end Reading

end EchoLoad.Arguments
