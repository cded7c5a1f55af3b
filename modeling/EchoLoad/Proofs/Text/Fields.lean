import EchoLoad.Text.Fields

/-!
# Cutting a text at a separator undoes joining

> `fieldsOf_eq_iff`: the fields of a text are the only texts without the separator that make up the text
> when they are joined with it.

`fields` is the cutting of lists at an element (`fields_eq_splitOn`), so what is known of that holds of
it.
-/

namespace EchoLoad.Text

/-- A text consists of some parts with the separator between them, and the separator is in none of
them. -/
structure SplitsInto (separator : Char) (text : String) (parts : List String) : Prop where
  ne_nil : parts ≠ []
  joined : text = (String.singleton separator).intercalate parts
  separate : ∀ part ∈ parts, separator ∉ part.toList

theorem fields_eq_splitOn (separator : Char) (cs : List Char) :
    fields separator cs = cs.splitOn separator := by
  induction cs with
  | nil => rfl
  | cons c rest ih =>
    rw [fields, List.splitOn_cons_eq_if_modifyHead, ih]
    by_cases hc : c = separator
    · rw [if_pos hc, if_pos (beq_iff_eq.mpr hc)]
    · rw [if_neg hc, if_neg (mt beq_iff_eq.mp hc)]
      cases hfields : rest.splitOn separator with
      | nil => exact absurd hfields (List.splitOn_ne_nil separator rest)
      | cons field more => rfl

theorem not_mem_fields (separator : Char) (cs : List Char) :
    ∀ field ∈ fields separator cs, separator ∉ field := by
  induction cs with
  | nil => simp [fields]
  | cons c rest ih =>
    rw [fields]
    by_cases hc : c = separator
    · rw [if_pos hc]
      exact List.forall_mem_cons.mpr ⟨List.not_mem_nil, ih⟩
    · rw [if_neg hc]
      cases hfields : fields separator rest with
      | nil => exact absurd hfields (fields_ne_nil separator rest)
      | cons field more =>
        rw [hfields] at ih
        obtain ⟨hfield, hmore⟩ := List.forall_mem_cons.mp ih
        refine List.forall_mem_cons.mpr ⟨?_, hmore⟩
        rw [List.mem_cons, not_or]
        exact ⟨Ne.symm hc, hfield⟩

theorem fieldsOf_eq_iff {separator : Char} {text : String} {parts : List String} :
    fieldsOf separator text = parts ↔ SplitsInto separator text parts := by
  constructor
  · rintro rfl
    refine ⟨?_, ?_, ?_⟩
    · exact mt List.map_eq_nil_iff.mp (fields_ne_nil separator text.toList)
    · have hlists : (fieldsOf separator text).map String.toList = text.toList.splitOn separator := by
        rw [fieldsOf, List.map_map, ← fields_eq_splitOn]
        exact List.map_id'' (fun _ => String.toList_ofList) _
      rw [← String.toList_inj, String.toList_intercalate, String.toList_singleton, hlists,
        List.intercalate_splitOn]
    · intro part hpart
      obtain ⟨field, hfield, rfl⟩ := List.mem_map.mp hpart
      rw [String.toList_ofList]
      exact not_mem_fields separator text.toList field hfield
  · rintro ⟨hne, rfl, hseparate⟩
    have hlists : ∀ field ∈ parts.map String.toList, separator ∉ field := by
      simpa using hseparate
    rw [fieldsOf, fields_eq_splitOn, String.toList_intercalate, String.toList_singleton,
      List.splitOn_intercalate separator hlists (mt List.map_eq_nil_iff.mp hne), List.map_map]
    exact List.map_id'' (fun _ => String.ofList_toList) _

end EchoLoad.Text
