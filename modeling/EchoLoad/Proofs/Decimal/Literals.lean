import EchoLoad.Decimal.Literal
import EchoLoad.Decimal.Shortest
import Mathlib.Data.List.TakeWhile

/-!
# The grammar of number literals

What the readers of numbers accept, said as a grammar and not as a reader:

- a whole number is an optional sign and one or more digits (`IsWhole`);
- a real number is an optional sign, digits with at most one point among or around them, and an optional
  exponent, which is a whole number behind an `e`; or one of the words for infinity and for what is no
  number, in any case (`IsReal`).

> `signed?_eq_some_iff`, `double?_eq_some_iff`: the readers accept the literals and nothing else, and
> give the numbers that these stand for.

A whole number that was written is a literal of itself (`isWhole_intText`), so it is read back.
-/

namespace EchoLoad.Decimal

/-- One or more decimal digits. -/
structure IsDigits (cs : List Char) : Prop where
  ne_nil : cs ≠ []
  isDigit : ∀ c ∈ cs, c.isDigit = true

/-- The number that digits stand for, the leading one first. -/
abbrev valueOf (digits : List Char) : Nat := Nat.ofDigitChars 10 digits 0

/-- What follows the sign of a text, or the whole text for want of a sign. -/
inductive HasSign : List Char → Bool → List Char → Prop
  | bare (rest : List Char) : HasSign rest false rest
  | plus (rest : List Char) : HasSign ('+' :: rest) false rest
  | minus (rest : List Char) : HasSign ('-' :: rest) true rest

/-- A literal of a whole number. -/
def IsWhole (cs : List Char) (n : Int) : Prop :=
  ∃ negative digits, HasSign cs negative digits ∧ IsDigits digits ∧
    n = if negative then -(valueOf digits : Int) else valueOf digits

/-- The exponent of a literal, if it has one. -/
inductive IsExponent : List Char → Int → Prop
  | absent : IsExponent [] 0
  | present {c : Char} {cs : List Char} {n : Int} (mark : c = 'e' ∨ c = 'E') (number : IsWhole cs n) :
    IsExponent (c :: cs) n

/-- A literal of a real number without its sign: digits with or without a point, and an exponent. The
digits behind the point count ten times less each. -/
inductive IsNumeral : List Char → Numeral → Prop
  | whole {digits exponent : List Char} {e : Int} (some_digit : IsDigits digits)
    (scale : IsExponent exponent e) : IsNumeral (digits ++ exponent) ⟨valueOf digits, e⟩
  | point {front fraction exponent : List Char} {e : Int} (some_digit : IsDigits (front ++ fraction))
    (scale : IsExponent exponent e) :
    IsNumeral (front ++ '.' :: (fraction ++ exponent))
      ⟨valueOf (front ++ fraction), e - fraction.length⟩

/-- A literal of a real number, with the nearest double. -/
inductive IsReal (cs : List Char) : Float → Prop
  | nan {negative : Bool} {word : List Char} (sign : HasSign cs negative word)
    (spelt : word.map Char.toLower = "nan".toList) : IsReal cs notANumber
  | infinite {negative : Bool} {word : List Char} (sign : HasSign cs negative word)
    (spelt : word.map Char.toLower = "inf".toList ∨ word.map Char.toLower = "infinity".toList) :
    IsReal cs (infinity negative)
  | finite {negative : Bool} {rest : List Char} {d : Numeral} (sign : HasSign cs negative rest)
    (numeral : IsNumeral rest d) : IsReal cs (d.toDouble negative)

/-! ## Digits and signs -/

theorem digitValue?_eq (c : Char) :
    digitValue? c = if c.isDigit then some (c.toNat - '0'.toNat) else none := by
  have hdigit : ('0' ≤ c ∧ c ≤ '9') ↔ c.isDigit = true := by
    rw [Char.isDigit, Bool.and_eq_true, decide_eq_true_eq, decide_eq_true_eq]
    exact Iff.rfl
  unfold digitValue?
  by_cases hc : c.isDigit = true
  · rw [if_pos hc, if_pos (hdigit.mpr hc)]
  · rw [if_neg hc, if_neg (mt hdigit.mp hc)]

theorem digitsFrom?_eq_some_iff {cs : List Char} {n : Nat} :
    ∀ {start : Nat}, digitsFrom? start cs = some n ↔
      (∀ c ∈ cs, c.isDigit = true) ∧ n = Nat.ofDigitChars 10 cs start := by
  induction cs with
  | nil =>
    intro start
    constructor
    · intro h
      cases h
      exact ⟨fun c hc => absurd hc List.not_mem_nil, rfl⟩
    · rintro ⟨-, rfl⟩
      rfl
  | cons c rest ih =>
    intro start
    rw [digitsFrom?, digitValue?_eq, Nat.ofDigitChars_cons, List.forall_mem_cons]
    by_cases hc : c.isDigit = true
    · simp only [hc, if_true, true_and]
      exact ih
    · simp [hc]

theorem digits?_eq_some_iff {cs : List Char} {n : Nat} :
    digits? cs = some n ↔ IsDigits cs ∧ n = valueOf cs := by
  unfold digits?
  cases cs with
  | nil =>
    constructor
    · intro h
      cases h
    · rintro ⟨h, -⟩
      exact absurd rfl h.ne_nil
  | cons c rest =>
    rw [List.isEmpty_cons, if_neg Bool.false_ne_true, digitsFrom?_eq_some_iff]
    constructor
    · rintro ⟨hdigits, hn⟩
      exact ⟨⟨List.cons_ne_nil c rest, hdigits⟩, hn⟩
    · rintro ⟨h, hn⟩
      exact ⟨h.isDigit, hn⟩

theorem hasSign_splitSign (cs : List Char) : HasSign cs (splitSign cs).1 (splitSign cs).2 := by
  unfold splitSign
  split
  · exact .minus _
  · exact .plus _
  · exact .bare _

/-- What starts with no sign of its own is what follows the sign. -/
theorem HasSign.splitSign_eq {cs rest : List Char} {negative : Bool} (h : HasSign cs negative rest)
    (hrest : ∀ c ∈ rest.head?, c ≠ '-' ∧ c ≠ '+') : splitSign cs = (negative, rest) := by
  cases h with
  | plus => rfl
  | minus => rfl
  | bare =>
    unfold splitSign
    split
    next => exact absurd rfl (hrest '-' rfl).1
    next => exact absurd rfl (hrest '+' rfl).2
    next => rfl

theorem IsDigits.head {cs : List Char} (h : IsDigits cs) : ∀ c ∈ cs.head?, c ≠ '-' ∧ c ≠ '+' := by
  intro c hc
  have hdigit := h.isDigit c (List.mem_of_mem_head? hc)
  constructor <;>
  · rintro rfl
    exact absurd hdigit (by decide)

/-! ## Whole numbers -/

theorem signed?_eq_some_iff {low high n : Int} {text : String} :
    signed? low high text = some n ↔ IsWhole text.toList n ∧ low ≤ n ∧ n ≤ high := by
  unfold signed?
  constructor
  · intro h
    dsimp only at h
    split at h
    next => cases h
    next value hvalue =>
      obtain ⟨hdigits, rfl⟩ := digits?_eq_some_iff.mp hvalue
      obtain ⟨hrange, hn⟩ := Option.ite_none_right_eq_some.mp h
      cases hn
      exact ⟨⟨_, _, hasSign_splitSign text.toList, hdigits, rfl⟩, hrange⟩
  · rintro ⟨⟨negative, digits, hsign, hdigits, rfl⟩, hrange⟩
    have hvalue : digits? digits = some (valueOf digits) := digits?_eq_some_iff.mpr ⟨hdigits, rfl⟩
    rw [hsign.splitSign_eq hdigits.head]
    simp only [hvalue]
    rw [if_pos hrange]

/-- A literal of a signed 32-bit number. -/
def IsInt32 (text : String) (n : Int32) : Prop := IsWhole text.toList n.toInt

theorem int32?_eq_some_iff {text : String} {n : Int32} : int32? text = some n ↔ IsInt32 text n := by
  have hmin : Int32.minValue.toInt = -2 ^ 31 := rfl
  have hmax : Int32.maxValue.toInt = 2 ^ 31 - 1 := rfl
  have hlow := n.le_toInt
  have hhigh := n.toInt_lt
  unfold int32? IsInt32
  rw [Option.map_eq_some_iff]
  constructor
  · rintro ⟨value, hvalue, rfl⟩
    obtain ⟨hwhole, hfrom, hto⟩ := signed?_eq_some_iff.mp hvalue
    rw [Int32.toInt_ofInt_of_le (by omega) (by omega)]
    exact hwhole
  · intro hwhole
    exact ⟨n.toInt, signed?_eq_some_iff.mpr ⟨hwhole, by omega, by omega⟩, Int32.ofInt_toInt n⟩

theorem isDigits_toDigits (n : Nat) : IsDigits (Nat.toDigits 10 n) where
  ne_nil := Nat.toDigits_ne_nil
  isDigit _ hc := Nat.isDigit_of_mem_toDigits (by decide) (by decide) hc

/-- A number that was written is a literal of itself. -/
theorem isWhole_intText (n : Int) : IsWhole (intText n).toList n := by
  have hvalue : valueOf (Nat.toDigits 10 n.natAbs) = n.natAbs := Nat.ofDigitChars_ten_toDigits
  unfold intText natText
  split
  next hnegative =>
    refine ⟨true, _, ?_, isDigits_toDigits n.natAbs, ?_⟩
    · simp only [String.toList_append, String.toList_ofList]
      exact HasSign.minus (Nat.toDigits 10 n.natAbs)
    · rw [hvalue, if_pos rfl]
      omega
  next hpositive =>
    refine ⟨false, _, ?_, isDigits_toDigits n.natAbs, ?_⟩
    · rw [String.toList_ofList]
      exact .bare _
    · rw [hvalue, if_neg Bool.false_ne_true]
      omega

theorem signed?_natText {low high : Int} {n : Nat} (hlow : low ≤ n) (hhigh : n ≤ high) :
    signed? low high (natText n) = some (n : Int) :=
  signed?_eq_some_iff.mpr ⟨isWhole_intText n, hlow, hhigh⟩

theorem unsigned?_natText {high n : Nat} (h : n ≤ high) : unsigned? high (natText n) = some n := by
  have hdigits := isDigits_toDigits n
  have hvalue : digits? (Nat.toDigits 10 n) = some n :=
    digits?_eq_some_iff.mpr ⟨hdigits, Nat.ofDigitChars_ten_toDigits.symm⟩
  unfold unsigned? natText
  rw [String.toList_ofList]
  cases hcs : Nat.toDigits 10 n with
  | nil => exact absurd hcs hdigits.ne_nil
  | cons c rest =>
    rw [hcs] at hvalue hdigits
    have hplus : c ≠ '+' := (hdigits.head c rfl).2
    simp [hplus, hvalue, h]

/-! ## Real numbers -/

/-- Digits are all that is taken up to a character that is none. -/
theorem takeWhile_digits {digits rest : List Char} (hdigits : ∀ c ∈ digits, c.isDigit = true)
    (hrest : ∀ c ∈ rest.head?, c.isDigit = false) :
    (digits ++ rest).takeWhile Char.isDigit = digits ∧
      (digits ++ rest).dropWhile Char.isDigit = rest := by
  rw [List.takeWhile_append_of_pos hdigits, List.dropWhile_append_of_pos hdigits]
  cases rest with
  | nil => exact ⟨List.append_nil digits, rfl⟩
  | cons c rest =>
    have hc : ¬ c.isDigit = true := by
      rw [hrest c rfl]
      exact Bool.false_ne_true
    rw [List.takeWhile_cons_of_neg hc, List.dropWhile_cons_of_neg hc]
    exact ⟨List.append_nil digits, rfl⟩

theorem exponentPart?_cons (c : Char) (rest : List Char) :
    exponentPart? (c :: rest) =
      if c = 'e' ∨ c = 'E' then
        (digits? (splitSign rest).2).map fun n : Nat => if (splitSign rest).1 then -(n : Int) else n
      else none := by
  have hcast : exponentPart? (c :: rest) =
      if c = 'e' ∨ c = 'E' then
        ((digits? (splitSign rest).2).bind fun n => some (n : Int)).map fun n =>
          if (splitSign rest).1 then -n else n
      else none := rfl
  rw [hcast]
  cases digits? (splitSign rest).2 <;> rfl

theorem exponentPart?_eq_some_iff {cs : List Char} {e : Int} :
    exponentPart? cs = some e ↔ IsExponent cs e := by
  cases cs with
  | nil =>
    constructor
    · intro h
      cases h
      exact .absent
    · rintro ⟨⟩
      rfl
  | cons c rest =>
    rw [exponentPart?_cons]
    constructor
    · intro h
      obtain ⟨hmark, h⟩ := Option.ite_none_right_eq_some.mp h
      obtain ⟨n, hn, rfl⟩ := Option.map_eq_some_iff.mp h
      obtain ⟨hdigits, rfl⟩ := digits?_eq_some_iff.mp hn
      exact .present hmark ⟨_, _, hasSign_splitSign rest, hdigits, rfl⟩
    · intro h
      cases h with
      | present hmark hwhole =>
        obtain ⟨negative, digits, hsign, hdigits, rfl⟩ := hwhole
        have hvalue : digits? digits = some (valueOf digits) :=
          digits?_eq_some_iff.mpr ⟨hdigits, rfl⟩
        rw [if_pos hmark, hsign.splitSign_eq hdigits.head, hvalue]
        rfl

theorem IsExponent.head {cs : List Char} {e : Int} (h : IsExponent cs e) :
    ∀ c ∈ cs.head?, c = 'e' ∨ c = 'E' := by
  intro c hc
  cases h with
  | absent => cases hc
  | present hmark _ =>
    cases hc
    exact hmark

theorem IsExponent.isDigit_head {cs : List Char} {e : Int} (h : IsExponent cs e) :
    ∀ c ∈ cs.head?, c.isDigit = false := by
  intro c hc
  rcases h.head c hc with rfl | rfl <;> rfl

theorem decimal?_whole {digits rest : List Char} (hdigits : ∀ c ∈ digits, c.isDigit = true)
    (hrest : ∀ c ∈ rest.head?, c.isDigit = false ∧ c ≠ '.') :
    decimal? (digits ++ rest) =
      (digits? digits).bind fun n => (exponentPart? rest).map fun e => ⟨n, e⟩ := by
  obtain ⟨htake, hdrop⟩ := takeWhile_digits hdigits fun c hc => (hrest c hc).1
  have hfraction : splitFraction rest = ([], rest) := by
    unfold splitFraction
    split
    next => exact absurd rfl (hrest '.' rfl).2
    next => rfl
  unfold decimal?
  rw [htake, hdrop, hfraction]
  dsimp only
  rw [List.append_nil]
  cases digits? digits with
  | none => rfl
  | some n => cases exponentPart? rest <;> simp

theorem decimal?_point {front fraction rest : List Char} (hfront : ∀ c ∈ front, c.isDigit = true)
    (hfraction : ∀ c ∈ fraction, c.isDigit = true) (hrest : ∀ c ∈ rest.head?, c.isDigit = false) :
    decimal? (front ++ '.' :: (fraction ++ rest)) =
      (digits? (front ++ fraction)).bind fun n =>
        (exponentPart? rest).map fun e => ⟨n, e - fraction.length⟩ := by
  have hpoint : ∀ c ∈ ('.' :: (fraction ++ rest)).head?, c.isDigit = false := by
    rintro c ⟨⟩
    rfl
  obtain ⟨htake, hdrop⟩ := takeWhile_digits hfront hpoint
  have hsplit : splitFraction ('.' :: (fraction ++ rest)) = (fraction, rest) :=
    Prod.ext_iff.mpr (takeWhile_digits hfraction hrest)
  unfold decimal?
  rw [htake, hdrop, hsplit]
  dsimp only
  cases digits? (front ++ fraction) with
  | none => rfl
  | some n => cases exponentPart? rest <;> rfl

/-- A text is cut where its digits end, and where those end that follow a point. -/
theorem exists_digits (cs : List Char) :
    (∃ digits rest, cs = digits ++ rest ∧ (∀ c ∈ digits, c.isDigit = true) ∧
      ∀ c ∈ rest.head?, c.isDigit = false ∧ c ≠ '.') ∨
    ∃ front fraction rest, cs = front ++ '.' :: (fraction ++ rest) ∧
      (∀ c ∈ front, c.isDigit = true) ∧ (∀ c ∈ fraction, c.isDigit = true) ∧
        ∀ c ∈ rest.head?, c.isDigit = false := by
  have hspan (text : List Char) : ∃ digits rest, text = digits ++ rest ∧
      (∀ c ∈ digits, c.isDigit = true) ∧ ∀ c ∈ rest.head?, c.isDigit = false := by
    refine ⟨text.takeWhile Char.isDigit, text.dropWhile Char.isDigit,
      List.takeWhile_append_dropWhile.symm, fun c hc => List.mem_takeWhile_imp hc, fun c hc => ?_⟩
    have hfirst := List.head?_dropWhile_not Char.isDigit text
    rw [hc] at hfirst
    exact hfirst
  obtain ⟨front, rest, rfl, hfront, hrest⟩ := hspan cs
  cases rest with
  | nil =>
    refine .inl ⟨front, [], rfl, hfront, ?_⟩
    intro c hc
    cases hc
  | cons c rest =>
    by_cases hpoint : c = '.'
    · obtain ⟨fraction, rest, rfl, hfraction, hrest⟩ := hspan rest
      exact .inr ⟨front, fraction, rest, by rw [hpoint], hfront, hfraction, hrest⟩
    · refine .inl ⟨front, c :: rest, rfl, hfront, ?_⟩
      rintro d ⟨⟩
      exact ⟨hrest c rfl, hpoint⟩

theorem decimal?_eq_some_iff {cs : List Char} {d : Numeral} :
    decimal? cs = some d ↔ IsNumeral cs d := by
  constructor
  · intro h
    rcases exists_digits cs with
      ⟨digits, rest, rfl, hdigits, hrest⟩ | ⟨front, fraction, rest, rfl, hfront, hfraction, hrest⟩
    · rw [decimal?_whole hdigits hrest] at h
      obtain ⟨n, hn, h⟩ := Option.bind_eq_some_iff.mp h
      obtain ⟨e, he, rfl⟩ := Option.map_eq_some_iff.mp h
      obtain ⟨hsome, rfl⟩ := digits?_eq_some_iff.mp hn
      exact .whole hsome (exponentPart?_eq_some_iff.mp he)
    · rw [decimal?_point hfront hfraction hrest] at h
      obtain ⟨n, hn, h⟩ := Option.bind_eq_some_iff.mp h
      obtain ⟨e, he, rfl⟩ := Option.map_eq_some_iff.mp h
      obtain ⟨hsome, rfl⟩ := digits?_eq_some_iff.mp hn
      exact .point hsome (exponentPart?_eq_some_iff.mp he)
  · intro h
    cases h with
    | whole hsome hscale =>
      have hrest : ∀ c ∈ List.head? _, c.isDigit = false ∧ c ≠ '.' := fun c hc => by
        rcases hscale.head c hc with rfl | rfl <;> decide
      rw [decimal?_whole hsome.isDigit hrest, digits?_eq_some_iff.mpr ⟨hsome, rfl⟩,
        exponentPart?_eq_some_iff.mpr hscale]
      rfl
    | point hsome hscale =>
      obtain ⟨hfront, hfraction⟩ := List.forall_mem_append.mp hsome.isDigit
      rw [decimal?_point hfront hfraction hscale.isDigit_head, digits?_eq_some_iff.mpr ⟨hsome, rfl⟩,
        exponentPart?_eq_some_iff.mpr hscale]
      rfl

theorem isAlpha_of_isDigit {c : Char} (h : c.isDigit = true) : c.isAlpha = false := by
  have hval : 48 ≤ c.val.toNat ∧ c.val.toNat ≤ 57 := Char.isDigit_iff_toNat.mp h
  have hupper : ¬ ('A'.val ≤ c.val ∧ c.val ≤ 'Z'.val) := by
    intro hletter
    have hA : 65 ≤ c.val.toNat := UInt32.le_iff_toNat_le.mp hletter.1
    omega
  have hlower : ¬ 'a'.val ≤ c.val := by
    intro hletter
    have ha : 97 ≤ c.val.toNat := UInt32.le_iff_toNat_le.mp hletter
    omega
  show (decide ('A'.val ≤ c.val ∧ c.val ≤ 'Z'.val) || (decide ('a'.val ≤ c.val) && _)) = false
  rw [decide_eq_false hupper, decide_eq_false hlower]
  rfl

theorem IsNumeral.head {cs : List Char} {d : Numeral} (h : IsNumeral cs d) :
    ∃ c ∈ cs.head?, c.isDigit = true ∨ c = '.' := by
  cases h with
  | whole hsome _ =>
    obtain ⟨c, digits, rfl⟩ := List.exists_cons_of_ne_nil hsome.ne_nil
    exact ⟨c, rfl, .inl (hsome.isDigit c List.mem_cons_self)⟩
  | @point front _ _ _ hsome _ =>
    cases front with
    | nil => exact ⟨'.', rfl, .inr rfl⟩
    | cons c front => exact ⟨c, rfl, .inl (hsome.isDigit c List.mem_cons_self)⟩

theorem isAlpha_of_isLower_toLower {c : Char} (h : c.toLower.isLower = true) : c.isAlpha = true := by
  unfold Char.toLower at h
  show (c.isUpper || c.isLower) = true
  split at h
  next hrange =>
    have hupper : c.isUpper = true := decide_eq_true hrange
    rw [hupper, Bool.true_or]
  next => rw [h, Bool.or_true]

/-- What is spelt with small letters, once all letters are made small, is spelt with letters. -/
theorem isAlpha_of_spelt {word : List Char} {letters : String}
    (hword : word.map Char.toLower = letters.toList) (hletters : letters.toList.all Char.isLower) :
    ∀ c ∈ word, c.isAlpha = true := by
  intro c hc
  apply isAlpha_of_isLower_toLower
  apply List.all_eq_true.mp hletters
  rw [← hword]
  exact List.mem_map_of_mem hc

theorem ne_sign_of_isAlpha {word : List Char} (h : ∀ c ∈ word, c.isAlpha = true) :
    ∀ c ∈ word.head?, c ≠ '-' ∧ c ≠ '+' := by
  intro c hc
  have hletter := h c (List.mem_of_mem_head? hc)
  constructor <;>
  · rintro rfl
    exact absurd hletter (by decide)

theorem double?_eq_some_iff {text : String} {x : Float} :
    double? text = some x ↔ IsReal text.toList x := by
  have hspelt {word : List Char} {letters : String} :
      String.ofList (word.map Char.toLower) = letters ↔ word.map Char.toLower = letters.toList := by
    rw [← String.toList_inj, String.toList_ofList]
  unfold double?
  constructor
  · intro h
    dsimp only at h
    have hsign := hasSign_splitSign text.toList
    split at h
    next hnan =>
      cases h
      exact .nan hsign (hspelt.mp hnan)
    next =>
      split at h
      next hinf =>
        cases h
        exact .infinite hsign (hinf.imp hspelt.mp hspelt.mp)
      next =>
        obtain ⟨d, hd, rfl⟩ := Option.map_eq_some_iff.mp h
        exact .finite hsign (decimal?_eq_some_iff.mp hd)
  · intro h
    cases h with
    | nan hsign hword =>
      rw [hsign.splitSign_eq (ne_sign_of_isAlpha (isAlpha_of_spelt hword (by decide)))]
      dsimp only
      rw [if_pos (hspelt.mpr hword)]
    | @infinite _ word hsign hword =>
      have hletters : ∀ c ∈ word, c.isAlpha = true :=
        hword.elim (isAlpha_of_spelt · (by decide)) (isAlpha_of_spelt · (by decide))
      have hnan : word.map Char.toLower ≠ "nan".toList := by
        rcases hword with hword | hword <;>
        · rw [hword]
          decide
      rw [hsign.splitSign_eq (ne_sign_of_isAlpha hletters)]
      dsimp only
      rw [if_neg (mt hspelt.mp hnan), if_pos (hword.imp hspelt.mpr hspelt.mpr)]
    | @finite _ rest d hsign hnumeral =>
      obtain ⟨first, hfirst, hdigit⟩ := hnumeral.head
      have hbare : first.isAlpha = false ∧ first ≠ '-' ∧ first ≠ '+' := by
        rcases hdigit with hdigit | rfl
        · refine ⟨isAlpha_of_isDigit hdigit, ?_, ?_⟩ <;>
          · rintro rfl
            exact absurd hdigit (by decide)
        · decide
      have hother {letters : String} (hletters : letters.toList.all Char.isLower) :
          String.ofList (rest.map Char.toLower) ≠ letters := by
        intro hword
        have hletter :=
          isAlpha_of_spelt (hspelt.mp hword) hletters first (List.mem_of_mem_head? hfirst)
        rw [hbare.1] at hletter
        cases hletter
      have hhead : ∀ c ∈ rest.head?, c ≠ '-' ∧ c ≠ '+' := by
        intro c hc
        rw [Option.mem_unique hc hfirst]
        exact hbare.2
      rw [hsign.splitSign_eq hhead]
      dsimp only
      rw [if_neg (hother (by decide)), if_neg (not_or.mpr ⟨hother (by decide), hother (by decide)⟩),
        decimal?_eq_some_iff.mpr hnumeral]
      rfl

/-! ## What literals are written with -/

/-- Characters of literals. -/
def isLiteral (c : Char) : Bool := c.isAlpha || c.isDigit || c = '+' || c = '-' || c = '.'

theorem isLiteral_of_isAlpha {c : Char} (h : c.isAlpha = true) : isLiteral c = true := by
  simp [isLiteral, h]

theorem isLiteral_of_isDigit {c : Char} (h : c.isDigit = true) : isLiteral c = true := by
  simp [isLiteral, h]

theorem HasSign.isLiteral {cs rest : List Char} {negative : Bool} (h : HasSign cs negative rest)
    (hrest : ∀ c ∈ rest, isLiteral c = true) : ∀ c ∈ cs, isLiteral c = true := by
  cases h with
  | bare => exact hrest
  | plus => exact List.forall_mem_cons.mpr ⟨rfl, hrest⟩
  | minus => exact List.forall_mem_cons.mpr ⟨rfl, hrest⟩

theorem IsWhole.isLiteral {cs : List Char} {n : Int} (h : IsWhole cs n) :
    ∀ c ∈ cs, isLiteral c = true := by
  obtain ⟨negative, digits, hsign, hdigits, -⟩ := h
  exact hsign.isLiteral fun c hc => isLiteral_of_isDigit (hdigits.isDigit c hc)

theorem IsNumeral.isLiteral {cs : List Char} {d : Numeral} (h : IsNumeral cs d) :
    ∀ c ∈ cs, isLiteral c = true := by
  have hexponent {exponent : List Char} {e : Int} (hscale : IsExponent exponent e) :
      ∀ c ∈ exponent, Decimal.isLiteral c = true := by
    cases hscale with
    | absent => simp
    | present hmark hwhole =>
      refine List.forall_mem_cons.mpr ⟨?_, hwhole.isLiteral⟩
      rcases hmark with rfl | rfl <;> rfl
  have hdigits {digits : List Char} (h : ∀ c ∈ digits, c.isDigit = true) :
      ∀ c ∈ digits, Decimal.isLiteral c = true := fun c hc => isLiteral_of_isDigit (h c hc)
  cases h with
  | whole hsome hscale =>
    exact List.forall_mem_append.mpr ⟨hdigits hsome.isDigit, hexponent hscale⟩
  | point hsome hscale =>
    obtain ⟨hfront, hfraction⟩ := List.forall_mem_append.mp hsome.isDigit
    refine List.forall_mem_append.mpr ⟨hdigits hfront, List.forall_mem_cons.mpr ⟨rfl, ?_⟩⟩
    exact List.forall_mem_append.mpr ⟨hdigits hfraction, hexponent hscale⟩

theorem IsReal.isLiteral {cs : List Char} {x : Float} (h : IsReal cs x) :
    ∀ c ∈ cs, isLiteral c = true := by
  have hletters {word : List Char} (h : ∀ c ∈ word, c.isAlpha = true) :
      ∀ c ∈ word, Decimal.isLiteral c = true := fun c hc => isLiteral_of_isAlpha (h c hc)
  cases h with
  | nan hsign hword => exact hsign.isLiteral (hletters (isAlpha_of_spelt hword (by decide)))
  | infinite hsign hword =>
    exact hsign.isLiteral (hletters
      (hword.elim (isAlpha_of_spelt · (by decide)) (isAlpha_of_spelt · (by decide))))
  | finite hsign hnumeral => exact hsign.isLiteral hnumeral.isLiteral

end EchoLoad.Decimal
