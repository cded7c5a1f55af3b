import EchoLoad.Proofs.Decimal.Literals
import EchoLoad.Proofs.Schedule.Drawn
import EchoLoad.Proofs.Text.Fields

/-!
# Which names stand for which workloads

`Named` says what a name stands for by its form alone: a literal of a whole number, or fields between
colons of which the first tells the kind. It has a case for every fault that a name can have.

> `ofName_named`: a name is read as what it stands for, with no name left over and none that stands for
> two things; what is read has lengths; and the name of a workload that has lengths is read as that
> workload.

No name has two forms: there is no colon in a literal (`not_mem_literal`). For the same reason the
numbers of a workload are fields of its name.
-/

namespace EchoLoad.Workload

open Decimal Text

/-- What a name stands for: a workload, or a fault. -/
inductive Named (name : String) : Except WorkloadError Workload → Prop
  | fixed {n : Int32} (number : IsInt32 name n) (positive : 0 < n) : Named name (.ok (.fixed n))
  | notPositive {n : Int32} (number : IsInt32 name n) (small : n ≤ 0) :
    Named name (.error (.invalid name "length must be positive"))
  | uniform {low high : String} {min max : Int32} (form : SplitsInto ':' name ["uniform", low, high])
    (least : IsInt32 low min) (most : IsInt32 high max) (positive : 0 < min) (ordered : min ≤ max) :
    Named name (.ok (.uniform min max))
  | badMinimum {low high : String} (form : SplitsInto ':' name ["uniform", low, high])
    (least : ∀ min, ¬ IsInt32 low min) : Named name (.error (.invalid name "bad minimum"))
  | badMaximum {low high : String} {min : Int32} (form : SplitsInto ':' name ["uniform", low, high])
    (least : IsInt32 low min) (most : ∀ max, ¬ IsInt32 high max) :
    Named name (.error (.invalid name "bad maximum"))
  | badRange {low high : String} {min max : Int32} (form : SplitsInto ':' name ["uniform", low, high])
    (least : IsInt32 low min) (most : IsInt32 high max) (range : ¬ (0 < min ∧ min ≤ max)) :
    Named name (.error (.invalid name "need 0 < MIN <= MAX"))
  | exponential {text : String} {mean : Float} (form : SplitsInto ':' name ["exp", text])
    (number : IsReal text.toList mean) (positive : isPositiveFinite mean = true) :
    Named name (.ok (.exponential mean))
  | badMean {text : String} (form : SplitsInto ':' name ["exp", text])
    (number : ∀ mean, ¬ IsReal text.toList mean) : Named name (.error (.invalid name "bad mean"))
  | meanNotPositive {text : String} {mean : Float} (form : SplitsInto ':' name ["exp", text])
    (number : IsReal text.toList mean) (unfit : isPositiveFinite mean = false) :
    Named name (.error (.invalid name "mean must be positive"))
  | unknown (number : ∀ n, ¬ IsInt32 name n)
    (uniform : ∀ low high, ¬ SplitsInto ':' name ["uniform", low, high])
    (exponential : ∀ text, ¬ SplitsInto ':' name ["exp", text]) : Named name (.error (.unknown name))

theorem not_mem_literal {cs : List Char} (h : ∀ c ∈ cs, isLiteral c = true) : ':' ∉ cs := by
  intro hc
  exact absurd (h ':' hc) (by decide)

/-- A name with fields is no number. -/
theorem not_isInt32_of_splitsInto {name first second : String} {more : List String}
    (form : SplitsInto ':' name (first :: second :: more)) (n : Int32) : ¬ IsInt32 name n := by
  intro hnumber
  refine not_mem_literal hnumber.isLiteral ?_
  rw [form.joined]
  simp

theorem int32?_eq_none_iff {text : String} : int32? text = none ↔ ∀ n, ¬ IsInt32 text n := by
  rw [Option.eq_none_iff_forall_ne_some]
  exact forall_congr' fun n => not_congr int32?_eq_some_iff

theorem double?_eq_none_iff {text : String} :
    double? text = none ↔ ∀ x, ¬ IsReal text.toList x := by
  rw [Option.eq_none_iff_forall_ne_some]
  exact forall_congr' fun x => not_congr double?_eq_some_iff

/-- A name is read as something that it stands for. -/
theorem named_ofName (name : String) : Named name (ofName name) := by
  unfold ofName
  split
  next n hn =>
    have number := int32?_eq_some_iff.mp hn
    split
    next hnegative => exact .notPositive number hnegative
    next hpositive => exact .fixed number (Int32.not_le.mp hpositive)
  next hnone =>
    -- no number, so the fields between the colons decide
    split
    next low high hfields =>
      have form := fieldsOf_eq_iff.mp hfields
      split
      next hlow => exact .badMinimum form (int32?_eq_none_iff.mp hlow)
      next min hlow hhigh =>
        exact .badMaximum form (int32?_eq_some_iff.mp hlow) (int32?_eq_none_iff.mp hhigh)
      next min max hlow hhigh =>
        have least := int32?_eq_some_iff.mp hlow
        have most := int32?_eq_some_iff.mp hhigh
        split
        next hrange =>
          refine .badRange form least most ?_
          rintro ⟨hpositive, hordered⟩
          rcases hrange with hrange | hrange
          · exact Int32.not_lt.mpr hrange hpositive
          · exact Int32.not_le.mpr hrange hordered
        next hrange =>
          obtain ⟨hpositive, hordered⟩ := not_or.mp hrange
          exact .uniform form least most (Int32.not_le.mp hpositive) (Int32.not_lt.mp hordered)
    next text hfields =>
      have form := fieldsOf_eq_iff.mp hfields
      split
      next htext => exact .badMean form (double?_eq_none_iff.mp htext)
      next mean htext =>
        have number := double?_eq_some_iff.mp htext
        split
        next hpositive => exact .exponential form number hpositive
        next hnegative => exact .meanNotPositive form number (Bool.not_eq_true _ ▸ hnegative)
    next huniform hexponential =>
      refine .unknown (int32?_eq_none_iff.mp hnone) ?_ ?_
      · intro low high form
        exact huniform low high (fieldsOf_eq_iff.mpr form)
      · intro text form
        exact hexponential text (fieldsOf_eq_iff.mpr form)

theorem ofName_uniform {name low high : String} (form : SplitsInto ':' name ["uniform", low, high]) :
    ofName name =
      match int32? low, int32? high with
      | none, _ => .error (.invalid name "bad minimum")
      | some _, none => .error (.invalid name "bad maximum")
      | some low, some high =>
        if low ≤ 0 ∨ high < low then .error (.invalid name "need 0 < MIN <= MAX")
        else .ok (.uniform low high) := by
  rw [ofName, int32?_eq_none_iff.mpr (not_isInt32_of_splitsInto form), fieldsOf_eq_iff.mpr form]
  rfl

theorem ofName_exponential {name text : String} (form : SplitsInto ':' name ["exp", text]) :
    ofName name =
      match double? text with
      | none => .error (.invalid name "bad mean")
      | some mean =>
        if isPositiveFinite mean then .ok (.exponential mean)
        else .error (.invalid name "mean must be positive") := by
  rw [ofName, int32?_eq_none_iff.mpr (not_isInt32_of_splitsInto form), fieldsOf_eq_iff.mpr form]
  rfl

/-- A name stands for one thing only. -/
theorem Named.ofName_eq {name : String} {result : Except WorkloadError Workload}
    (h : Named name result) : ofName name = result := by
  cases h with
  | fixed number positive =>
    simp only [ofName, int32?_eq_some_iff.mpr number, if_neg (Int32.not_le.mpr positive)]
  | notPositive number small =>
    simp only [ofName, int32?_eq_some_iff.mpr number, if_pos small]
  | uniform form least most positive ordered =>
    rw [ofName_uniform form, int32?_eq_some_iff.mpr least, int32?_eq_some_iff.mpr most]
    exact if_neg (not_or.mpr ⟨Int32.not_le.mpr positive, Int32.not_lt.mpr ordered⟩)
  | badMinimum form least =>
    rw [ofName_uniform form, int32?_eq_none_iff.mpr least]
  | badMaximum form least most =>
    rw [ofName_uniform form, int32?_eq_some_iff.mpr least, int32?_eq_none_iff.mpr most]
  | @badRange low high min max form least most range =>
    rw [ofName_uniform form, int32?_eq_some_iff.mpr least, int32?_eq_some_iff.mpr most]
    exact if_pos ((not_and_or.mp range).imp Int32.not_lt.mp Int32.not_le.mp)
  | exponential form number positive =>
    rw [ofName_exponential form, double?_eq_some_iff.mpr number]
    exact if_pos positive
  | badMean form number =>
    rw [ofName_exponential form, double?_eq_none_iff.mpr number]
  | meanNotPositive form number unfit =>
    rw [ofName_exponential form, double?_eq_some_iff.mpr number]
    exact if_neg (by rw [unfit]; exact Bool.false_ne_true)
  | unknown number uniform exponential =>
    rw [ofName, int32?_eq_none_iff.mpr number]
    dsimp only
    split
    next low high hfields => exact absurd (fieldsOf_eq_iff.mp hfields) (uniform low high)
    next text hfields => exact absurd (fieldsOf_eq_iff.mp hfields) (exponential text)
    next => rfl

/-! ## The names of workloads -/

theorem isInt32_intText (n : Int32) : IsInt32 (intText n.toInt) n := isWhole_intText n.toInt

/-- A literal is a field of any text that it is joined into. -/
theorem splitsInto_colon {first : String} {more : List String} (hfirst : ':' ∉ first.toList)
    (hmore : ∀ part ∈ more, ∀ c ∈ part.toList, isLiteral c = true) :
    SplitsInto ':' (":".intercalate (first :: more)) (first :: more) where
  ne_nil := List.cons_ne_nil first more
  joined := rfl
  separate := List.forall_mem_cons.mpr
    ⟨hfirst, fun part hpart => not_mem_literal (hmore part hpart)⟩

/-- A workload is what its name stands for, if its mean is written as a literal of itself. -/
theorem named_name {w : Workload} (hw : w.IsProper)
    (hmean : ∀ mean, w = exponential mean → IsReal (doubleText .plain mean).toList mean) :
    Named w.name (.ok w) := by
  have hpositive {n : Int32} (hn : 1 ≤ n.toInt) : 0 < n := Int32.lt_iff_toInt_lt.mpr hn
  cases w with
  | fixed n => exact .fixed (isInt32_intText n) (hpositive hw)
  | uniform low high =>
    have least := isInt32_intText low
    have most := isInt32_intText high
    -- the name is its fields joined by colons, and a literal holds none that would part it
    have hname : (uniform low high).name =
        ":".intercalate ["uniform", intText low.toInt, intText high.toInt] := by
      have hkind : "uniform:" = "uniform" ++ ":" := rfl
      simp only [name, hkind, String.intercalate_cons_cons, String.intercalate_singleton,
        String.append_assoc]
    have form : SplitsInto ':' (uniform low high).name
        ["uniform", intText low.toInt, intText high.toInt] := by
      rw [hname]
      refine splitsInto_colon (by decide) ?_
      exact List.forall_mem_cons.mpr ⟨least.isLiteral, List.forall_mem_singleton.mpr most.isLiteral⟩
    exact .uniform form least most (hpositive hw.1) hw.2
  | exponential mean =>
    have number := hmean mean rfl
    have hname : (exponential mean).name = ":".intercalate ["exp", doubleText .plain mean] := by
      have hkind : "exp:" = "exp" ++ ":" := rfl
      rw [name, hkind, String.intercalate_cons_cons, String.intercalate_singleton]
    have form : SplitsInto ':' (exponential mean).name ["exp", doubleText .plain mean] := by
      rw [hname]
      exact splitsInto_colon (by decide) (List.forall_mem_singleton.mpr number.isLiteral)
    exact .exponential form number hw

/-- **A name is read as what it stands for.** That is one thing for each name, a workload or a fault;
a workload that was read has lengths; and a workload that has lengths is read from its own name, given
that the text of its mean is read as that mean. -/
theorem ofName_named :
    (∀ name result, ofName name = result ↔ Named name result) ∧
    (∀ name w, ofName name = .ok w → w.IsProper) ∧
    ∀ w : Workload, w.IsProper →
      (∀ mean, w = exponential mean → double? (doubleText .plain mean) = some mean) →
        ofName w.name = .ok w := by
  refine ⟨?_, ?_, ?_⟩
  · intro name result
    constructor
    · rintro rfl
      exact named_ofName name
    · exact Named.ofName_eq
  · intro name w h
    exact isProper_ofName h
  · intro w hw hmean
    exact (named_name hw fun mean h => double?_eq_some_iff.mp (hmean mean h)).ofName_eq

/-- A mean that is written with an exponent, and without one in the name of the workload. -/
theorem ofName_named_mean :
    ofName "exp:1.5e3" = .ok (exponential 1500) ∧ (exponential 1500).name = "exp:1500" ∧
      ofName (exponential 1500).name = .ok (exponential 1500) := by
  have hread : ofName "exp:1.5e3" = .ok (exponential 1500) := rfl
  refine ⟨hread, by decide +kernel, ?_⟩
  refine ofName_named.2.2 (exponential 1500) (ofName_named.2.1 _ _ hread) ?_
  rintro mean ⟨⟩
  decide +kernel

end EchoLoad.Workload
