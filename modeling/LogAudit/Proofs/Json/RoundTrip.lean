import LogAudit.Json.Read

/-!
# Objects of texts on one line

An object whose values are texts is written on one line, without a line break, and is read back from
it, whatever characters its texts have (`Json.readObject?_compact`).
-/

namespace LogAudit.Json

/-! ## Texts -/

/-- Two digits of base sixteen give the code of a control character. -/
theorem unit?_hexDigit : ∀ n < 32,
    unit? '0' '0' (hexDigit (n / 16)) (hexDigit (n % 16)) = some n := by decide

theorem hexDigit_ne_newline : ∀ n < 16, '\n' ≠ hexDigit n := by decide

/-- A code unit that stands alone is read as its character. -/
theorem readText_unit {a b c d char : Char} (h : (unit? a b c d).bind alone? = some char)
    (rest : List Char) : readText ('\\' :: 'u' :: a :: b :: c :: d :: rest) =
      (readText rest).map (prepend char) := by
  rw [readText.eq_def]
  simp only [h]

/-- A character that needs no escape is read as it is. -/
theorem readText_plain {c : Char} (hquote : c ≠ '"') (hslash : c ≠ '\\') (hplain : ¬ c.toNat < 32)
    (rest : List Char) : readText (c :: rest) = (readText rest).map (prepend c) := by
  rw [readText.eq_5 c rest hquote (fun _ _ _ _ _ h _ => hslash h) (fun _ _ h _ => hslash h),
    if_neg hplain]

/-- A character is read as it is spelled. -/
theorem readText_spell (c : Char) (rest : List Char) :
    readText (spell c ++ rest) = (readText rest).map (prepend c) := by
  unfold spell
  split
  · rfl
  · rfl
  · rfl
  · rfl
  · rfl
  · rfl
  · rfl
  · rename_i hquote hslash _ _ _ _ _
    split
    · rename_i hcontrol
      have halone : alone? c.toNat = some c := by
        rw [alone?, if_neg (by omega), Char.ofNat_toNat]
      exact readText_unit (by rw [unit?_hexDigit _ hcontrol, Option.bind_some, halone]) rest
    · exact readText_plain hquote hslash ‹_› rest

/-- A text is read as it is spelled, up to the quote that ends it. -/
theorem readText_flatMap_spell (chars rest : List Char) :
    readText (chars.flatMap spell ++ '"' :: rest) = some (chars, rest) := by
  induction chars with
  | nil => rfl
  | cons c chars ih =>
    rw [List.flatMap_cons, List.append_assoc, readText_spell, ih]
    rfl

/-- No character is spelled with a line break. -/
theorem newline_not_mem_spell (c : Char) : '\n' ∉ spell c := by
  unfold spell
  split
  · decide
  · decide
  · decide
  · decide
  · decide
  · decide
  · decide
  · rename_i hnewline _ _
    split
    · rename_i hcontrol
      have hfirst := hexDigit_ne_newline (c.toNat / 16) (by omega)
      have hsecond := hexDigit_ne_newline (c.toNat % 16) (by omega)
      simp [hfirst, hsecond]
    · rw [List.mem_singleton]
      exact fun h => hnewline h.symm

/-- A quoted text is read back. What follows it is no blank. -/
theorem readQuoted_quote (s : String) {rest : List Char} (hrest : skipSpace rest = rest) :
    readQuoted ((quote s).toList ++ rest) = some (s.toList, rest) := by
  simp only [quote, String.toList_ofList, List.cons_append, List.nil_append, List.append_assoc,
    readQuoted, readText_flatMap_spell, Option.map_some, hrest]

theorem newline_not_mem_quote (s : String) : '\n' ∉ (quote s).toList := by
  simp [quote, newline_not_mem_spell]

/-! ## Objects -/

/-- A quoted text begins with no blank. -/
theorem skipSpace_quote (s : String) (rest : List Char) :
    skipSpace ((quote s).toList ++ rest) = (quote s).toList ++ rest := by
  rw [quote, String.toList_ofList]
  rfl

/-- A member is read back as it is written. What follows it is no blank. -/
theorem readMember_quote (member : String × String) {rest : List Char}
    (hrest : skipSpace rest = rest) :
    readMember ((quote member.1).toList ++ ':' :: ((quote member.2).toList ++ rest)) =
      some (member, rest) := by
  rw [readMember, readQuoted_quote _ rfl]
  simp only [skipSpace_quote, readQuoted_quote _ hrest, Option.map_some, String.ofList_toList]

/-- The fields of an object of texts. -/
def textFields (members : List (String × String)) : List (String × Json) :=
  members.map fun member => (member.1, text member.2)

/-- The last member stands before the brace. -/
theorem compactFields_last (member : String × String) (rest : List Char) :
    (compactFields (textFields [member])).toList ++ rest =
      (quote member.1).toList ++ ':' :: ((quote member.2).toList ++ rest) := by
  simp [textFields, compactFields, compact]

/-- Any other member stands before a comma. -/
theorem compactFields_more (member next : String × String) (others : List (String × String))
    (rest : List Char) :
    (compactFields (textFields (member :: next :: others))).toList ++ rest =
      (quote member.1).toList ++ ':' :: ((quote member.2).toList ++
        ',' :: ((compactFields (textFields (next :: others))).toList ++ rest)) := by
  simp [textFields, compactFields, compact]

/-- The first member begins with a quote. -/
theorem exists_compactFields_eq (member : String × String) (others : List (String × String))
    (rest : List Char) : ∃ chars,
    (compactFields (textFields (member :: others))).toList ++ rest = '"' :: chars := by
  cases others with
  | nil => rw [compactFields_last, quote, String.toList_ofList]; exact ⟨_, rfl⟩
  | cons next others => rw [compactFields_more, quote, String.toList_ofList]; exact ⟨_, rfl⟩

theorem skipSpace_compactFields (member : String × String) (others : List (String × String))
    (rest : List Char) :
    skipSpace ((compactFields (textFields (member :: others))).toList ++ rest) =
      (compactFields (textFields (member :: others))).toList ++ rest := by
  obtain ⟨chars, hchars⟩ := exists_compactFields_eq member others rest
  rw [hchars]
  rfl

/-- Members are read back as they are written. -/
theorem readMembers_compactFields (first : String × String) (others : List (String × String)) :
    readMembers ((compactFields (textFields (first :: others))).toList ++ ['\x7d']) =
      some (first :: others, []) := by
  induction others generalizing first with
  | nil =>
    rw [compactFields_last, readMembers, readMember_quote first rfl]
    rfl
  | cons next others ih =>
    rw [compactFields_more, readMembers, readMember_quote first rfl]
    simp only [skipSpace_compactFields, ih, Option.map_some]

/-- An object of texts is read back from its form on one line. -/
theorem readObject?_compact (members : List (String × String)) :
    readObject? (record (textFields members)).compact = some members := by
  cases members with
  | nil => rfl
  | cons first others =>
    have hwritten : (record (textFields (first :: others))).compact.toList =
        '\x7b' :: ((compactFields (textFields (first :: others))).toList ++ ['\x7d']) := by
      simp [compact]
    have hread := readMembers_compactFields first others
    have hskip := skipSpace_compactFields first others ['\x7d']
    obtain ⟨chars, hchars⟩ := exists_compactFields_eq first others ['\x7d']
    rw [hchars] at hwritten hread hskip
    have hspace : skipSpace ('\x7b' :: '"' :: chars) = '\x7b' :: '"' :: chars := rfl
    rw [readObject?, hwritten, hspace]
    change readInside (skipSpace ('"' :: chars)) = some (first :: others)
    rw [hskip, readInside.eq_def]
    split
    · rename_i hbrace
      exact absurd (List.cons.inj hbrace).1 (by decide)
    · rw [hread]

/-- An object of texts is written without a line break. -/
theorem newline_not_mem_compact (members : List (String × String)) :
    '\n' ∉ (record (textFields members)).compact.toList := by
  have hfields : '\n' ∉ (compactFields (textFields members)).toList := by
    induction members with
    | nil => simp [textFields, compactFields]
    | cons member others ih =>
      cases others with
      | nil => simp [textFields, compactFields, compact, newline_not_mem_quote]
      | cons next others =>
        have hmore := compactFields_more member next others []
        rw [List.append_nil, List.append_nil] at hmore
        simp [hmore, newline_not_mem_quote, ih]
  simp [compact, hfields]

end LogAudit.Json
