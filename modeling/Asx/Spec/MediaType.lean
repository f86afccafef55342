import Asx.ForStd.Ascii
import Asx.Native.As2Entity
import Asx.Native.MimePackaging

/-!
# Accepted media types

What `validate_media_type` of AS4 and `valid_media_type` of AS2 accept starts with a token and
ends in a token or a quoted string, so reading it back with its ends trimmed changes nothing.
-/

namespace Asx

/-- A token is not empty and holds token octets only. -/
theorem skipToken_some {s r : Bytes} (h : skipToken s = some r) :
    ∃ t, s = t ++ r ∧ t ≠ [] ∧ ∀ b ∈ t, isTchar b = true := by
  unfold skipToken at h
  split at h
  · rename_i hhead
    cases h
    refine ⟨s.takeWhile isTchar, (List.takeWhile_append_dropWhile).symm, ?_, fun b hb =>
      List.mem_takeWhile_imp hb⟩
    cases s with
    | nil => cases hhead
    | cons b s =>
      rw [List.takeWhile_cons_of_pos (by simpa using hhead)]
      simp
  · cases h

/-- The rest of a quoted string ends with its closing quote. -/
theorem skipQuoted_some {s r : Bytes} (h : skipQuoted s = some r) : ∃ t, s = t ++ 0x22 :: r := by
  -- the octet behind a backslash is taken with it, so a quote there does not end the string
  fun_induction skipQuoted s with
  | case1 => cases h
  | case2 s =>
    cases h
    exact ⟨[], rfl⟩
  | case3 => cases h
  | case4 b s ih =>
    obtain ⟨t, rfl⟩ := ih h
    exact ⟨0x5C :: b :: t, rfl⟩
  | case5 b s _ _ _ ih =>
    obtain ⟨t, rfl⟩ := ih h
    exact ⟨b :: t, rfl⟩

/-- A quoted string ends with its closing quote. -/
theorem skipQuotedString_some {s r : Bytes} (h : skipQuotedString s = some r) :
    ∃ t, s = t ++ 0x22 :: r := by
  unfold skipQuotedString at h
  split at h
  · obtain ⟨t, rfl⟩ := skipQuoted_some h
    exact ⟨0x22 :: t, rfl⟩
  · cases h

theorem getLast?_append_ne {s t : Bytes} {b : UInt8} (ht : t ≠ [])
    (h : t.getLast? ≠ some b) : (s ++ t).getLast? ≠ some b := by
  rw [List.getLast?_append_of_ne_nil _ ht]
  exact h

theorem isTchar_ne_space {b : UInt8} (h : isTchar b = true) : b ≠ 0x20 := by
  rintro rfl
  revert h
  decide

/-- What is taken by a token or a quoted string does not end in a space. -/
theorem getLast?_value_ne {s r : Bytes}
    (h : (skipToken s).or (skipQuotedString s) = some r) (hr : r.getLast? ≠ some 0x20) :
    s.getLast? ≠ some 0x20 := by
  -- with nothing behind it the value itself ends the text: in a token octet or in a quote
  rcases Option.or_eq_some_iff.mp h with htoken | ⟨-, hquoted⟩
  · obtain ⟨t, rfl, hne, hall⟩ := skipToken_some htoken
    cases r with
    | nil =>
      rw [List.append_nil]
      intro hlast
      exact isTchar_ne_space (hall _ (List.mem_of_getLast? hlast)) rfl
    | cons x r => exact getLast?_append_ne (by simp) hr
  · obtain ⟨t, rfl⟩ := skipQuotedString_some hquoted
    refine getLast?_append_ne (by simp) ?_
    cases r with
    | nil => decide
    | cons x r =>
      rw [List.getLast?_cons_cons]
      exact hr

/-- A list of parameters that is read to its end does not end in a space: each value is a token or
    a quoted string, and spaces stand only before a `;` or a name. -/
theorem parseMediaParameters_last {rounds : Nat} {s : Bytes}
    (h : parseMediaParameters rounds s = some ()) : s.getLast? ≠ some 0x20 := by
  -- one round takes one parameter; what follows its value is the next round's text
  induction rounds generalizing s with
  | zero => cases h
  | succ rounds ih =>
    have hspaces : ∃ pre, s = pre ++ skipSpaces s :=
      ⟨s.takeWhile (· == 0x20), (List.takeWhile_append_dropWhile).symm⟩
    rw [parseMediaParameters] at h
    split at h
    · split at h
      · rename_i hnil
        rw [hnil]
        simp
      · cases h
    · rename_i parameter hparameter
      split at h
      · rename_i value hvalue
        obtain ⟨r, hr, hrest⟩ := Option.bind_eq_some_iff.mp h
        have hlast := getLast?_value_ne hr (ih hrest)
        obtain ⟨name, hname, -, -⟩ := skipToken_some hvalue
        obtain ⟨pre, hpre⟩ := hspaces
        obtain ⟨pre', hpre'⟩ : ∃ pre', parameter = pre' ++ skipSpaces parameter :=
          ⟨parameter.takeWhile (· == 0x20), (List.takeWhile_append_dropWhile).symm⟩
        have hs : s = (pre ++ 0x3B :: pre' ++ name) ++ 0x3D :: value := by
          rw [hpre, hparameter, hpre', hname]
          simp
        rw [hs]
        refine getLast?_append_ne (by simp) ?_
        cases value with
        | nil => decide
        | cons x value =>
          rw [List.getLast?_cons_cons]
          exact hlast
      · cases h
    · cases h

/-- Neither the first octet of a media type nor its last is a space, so that a printable one
    is visible text. -/
theorem visible_of_parseMediaType {value : Str}
    (hbytes : ∀ b ∈ Str.utf8 value, 0x20 ≤ b.toNat ∧ b.toNat < 0x7F)
    (hparse : parseMediaType (Str.utf8 value) = some ()) : Str.IsVisible value := by
  obtain ⟨hascii, hmap⟩ := Str.utf8_eq_map fun b hb => Nat.lt_succ_of_lt (hbytes b hb).2
  unfold parseMediaType at hparse
  split at hparse
  · rename_i subtype hsubtype
    obtain ⟨rest, hrest, hparameters⟩ := Option.bind_eq_some_iff.mp hparse
    obtain ⟨type, htype, hne, htchar⟩ := skipToken_some hsubtype
    have hlast : subtype.getLast? ≠ some 0x20 :=
      getLast?_value_ne (by rw [hrest]; rfl) (parseMediaParameters_last hparameters)
    obtain ⟨first, type, rfl⟩ := List.exists_cons_of_ne_nil hne
    refine ⟨fun c hc => ?_, ?_, fun hhead => ?_, fun hend => ?_⟩
    · have := hbytes (.ofNat c.toNat) (hmap ▸ List.mem_map_of_mem hc)
      rwa [Str.toNat_ofNat_ascii (hascii c hc)] at this
    · rintro rfl
      cases htype
    · obtain ⟨value, rfl⟩ := List.head?_eq_some_iff.mp hhead
      rw [hmap, List.map_cons, List.cons_append, List.cons.injEq] at htype
      exact isTchar_ne_space (htchar first List.mem_cons_self) htype.1.symm
    -- the text is ASCII, so a space at its end is the octet at the end of its UTF-8
    · have hbyte : (Str.utf8 value).getLast? = some 0x20 := by
        rw [hmap, List.getLast?_map, hend]
        rfl
      rw [htype] at hbyte
      refine getLast?_append_ne (by simp) ?_ hbyte
      cases subtype with
      | nil => decide
      | cons x subtype =>
        rw [List.getLast?_cons_cons]
        exact hlast
  · cases hparse

/-- What `validate_media_type` of AS4 accepts is read back from a header as it is. -/
theorem validateMediaType_ok {value field : Str} (h : validateMediaType value field = .ok ()) :
    Str.IsVisible value := by
  unfold validateMediaType at h
  dsimp only at h
  split at h
  · cases h
  · rename_i hnone
    refine visible_of_parseMediaType (fun b hb => ?_) (Except.okOr_eq_ok.mp h)
    have := List.find?_eq_none.mp hnone b hb
    simp only [Bool.not_eq_true, Bool.not_eq_false', Bool.and_eq_true, decide_eq_true_eq,
      UInt8.le_iff_toNat_le, UInt8.lt_iff_toNat_lt] at this
    exact this

/-! ## The check of AS2 -/

/-- Refusing line breaks in quoted strings is the only difference between the two checks. -/
theorem skipQuoted_of_line {s r : Bytes} (h : skipQuotedLine s = some r) : skipQuoted s = some r := by
  fun_induction skipQuotedLine s with
  | case1 => cases h
  | case2 s => exact h
  | case3 => cases h
  | case4 b s ih => exact ih h
  | case5 => cases h
  | case6 => cases h
  | case7 b s hquote hlast hescape _ _ ih =>
    rw [skipQuoted]
    · exact ih h
    · exact hquote
    · exact hlast
    · exact hescape

/-- The parameters that `valid_media_type` reads are those that `validate_media_type` reads. -/
theorem parseMediaParameters_of_line {rounds : Nat} {s : Bytes}
    (h : parseMediaParametersLine rounds s = some ()) : parseMediaParameters rounds s = some () := by
  induction rounds generalizing s with
  | zero => cases h
  | succ rounds ih =>
    rw [parseMediaParametersLine] at h
    split at h
    · rename_i hnil
      rw [parseMediaParameters]
      simpa only [hnil] using h
    · rename_i parameter hparameter
      split at h
      · rename_i value hvalue
        obtain ⟨r, hr, hrest⟩ := Option.bind_eq_some_iff.mp h
        -- a token is read alike; of quoted strings the line form takes fewer
        have hvalue' : (skipToken value).or (skipQuotedString value) = some r := by
          rcases Option.or_eq_some_iff.mp hr with htoken | ⟨hnone, hquoted⟩
          · rw [htoken, Option.some_or]
          · rw [hnone, Option.none_or]
            unfold skipQuotedStringLine at hquoted
            split at hquoted
            · exact skipQuoted_of_line hquoted
            · cases hquoted
        rw [parseMediaParameters]
        simp only [hparameter, hvalue, hvalue']
        exact ih hrest
      · cases h
    · cases h

/-- What `valid_media_type` of AS2 accepts is read back from a header as it is. -/
theorem visible_of_validMediaType {value : Str}
    (hascii : ∀ c ∈ value, 0x20 ≤ c.toNat ∧ c.toNat < 0x7F) (h : validMediaType value = true) :
    Str.IsVisible value := by
  refine visible_of_parseMediaType (Str.toNat_of_mem_utf8 hascii) ?_
  simp only [validMediaType, Bool.and_eq_true] at h
  obtain ⟨u, hu⟩ := Option.isSome_iff_exists.mp h.2
  unfold parseMediaTypeLine at hu
  split at hu
  · rename_i subtype hsubtype
    obtain ⟨rest, hrest, hparameters⟩ := Option.bind_eq_some_iff.mp hu
    unfold parseMediaType
    simp only [hsubtype, hrest]
    exact parseMediaParameters_of_line hparameters
  · cases hu

end Asx
