import Mathlib.Data.List.DropRight
import Workbench.Proofs.Json.Literals

/-! # Written values are read back

A text spells a value if the reader finds the value in it, whatever follows. The parts of
a list or record may be set apart by blanks. Both spellings that are written, the one
without spaces and the one over several lines, spell the value they were written from. -/

namespace Workbench.Json

/-! ## Blanks -/

/-- A run of blanks. -/
def Gap (cs : List Char) : Prop := ∀ c ∈ cs, isSpace c = true

theorem gap_nil : Gap [] := nofun

theorem gap_space : Gap [' '] := by
  intro c hc
  rw [List.mem_singleton.mp hc]
  decide

theorem gap_newline (level : Nat) : Gap (newline level) := by
  intro c hc
  rcases List.mem_cons.mp hc with rfl | hspaces
  · decide
  · rw [List.eq_of_mem_replicate hspaces]
    decide

variable {gap before after cs body rest : List Char} {j : Json} {fuel : Nat}

theorem skipSpace_append (hgap : Gap gap) (cs : List Char) :
    skipSpace (gap ++ cs) = skipSpace cs :=
  List.dropWhile_append_of_pos hgap

theorem skipSpace_cons {c : Char} (h : isSpace c = false) (cs : List Char) :
    skipSpace (c :: cs) = c :: cs := by
  rw [skipSpace, List.dropWhile_cons_of_neg (by simp [h])]

theorem skipSpace_skipSpace (cs : List Char) : skipSpace (skipSpace cs) = skipSpace cs :=
  List.dropWhile_idempotent _ _

theorem endsNumber_cons {c : Char} (hdigit : c.isDigit = false) (hsign : c ≠ '.')
    (hlower : c ≠ 'e') (hupper : c ≠ 'E') (cs : List Char) : EndsNumber (c :: cs) := by
  intro d hd
  obtain rfl := Option.some.inj hd
  exact ⟨hdigit, hsign, hlower, hupper⟩

theorem endsNumber_append (hgap : Gap gap) (h : EndsNumber cs) : EndsNumber (gap ++ cs) := by
  cases gap with
  | nil => exact h
  | cons c rest =>
      have hspace : c = ' ' ∨ c = '\t' ∨ c = '\n' ∨ c = '\r' := by
        simpa [isSpace, or_assoc] using hgap c List.mem_cons_self
      rcases hspace with rfl | rfl | rfl | rfl <;>
        exact endsNumber_cons (by decide) (by decide) (by decide) (by decide) _

/-! ## What a text spells -/

/-- The text spells the value: given calls enough, the reader finds it and stops behind it. -/
def Spells (cs : List Char) (j : Json) : Prop :=
  ∀ fuel rest, 2 * cs.length ≤ fuel → EndsNumber rest →
    readValue fuel (cs ++ rest) = some (j, rest)

/-- The text spells the items of a list up to its closing bracket. -/
def SpellsItems (cs : List Char) (items : List Json) : Prop :=
  ∀ fuel rest, 2 * cs.length < fuel → readItems fuel (cs ++ ']' :: rest) = some (items, rest)

/-- The text spells the members of a record up to its closing brace. -/
def SpellsMembers (cs : List Char) (members : List (Option String × Json)) : Prop :=
  ∀ fuel rest, 2 * cs.length < fuel → readMembers fuel (cs ++ '}' :: rest) = some (members, rest)

theorem readValue_skipSpace (fuel : Nat) (cs : List Char) :
    readValue fuel (skipSpace cs) = readValue fuel cs := by
  cases fuel with
  | zero => rfl
  | succ fuel => rw [readValue, readValue, skipSpace_skipSpace]

theorem readValue_append (hgap : Gap gap) (fuel : Nat) (cs : List Char) :
    readValue fuel (gap ++ cs) = readValue fuel cs := by
  rw [← readValue_skipSpace, skipSpace_append hgap, readValue_skipSpace]

theorem readItems_skipSpace (fuel : Nat) (cs : List Char) :
    readItems fuel (skipSpace cs) = readItems fuel cs := by
  cases fuel with
  | zero => rfl
  | succ fuel => rw [readItems, readItems, readValue_skipSpace]

theorem readMembers_skipSpace (fuel : Nat) (cs : List Char) :
    readMembers fuel (skipSpace cs) = readMembers fuel cs := by
  cases fuel with
  | zero => rfl
  | succ fuel => rw [readMembers, readMembers, skipSpace_skipSpace]

/-! ## Atoms -/

theorem Spells.of_readAtom {c : Char} {tail : List Char} (hspace : isSpace c = false)
    (hlist : c ≠ '[') (hrecord : c ≠ '\x7b')
    (h : ∀ rest, EndsNumber rest → readAtom (c :: tail ++ rest) = some (j, rest)) :
    Spells (c :: tail) j := by
  intro fuel rest hfuel hrest
  obtain ⟨fuel, rfl⟩ : ∃ n, fuel = n + 1 :=
    Nat.exists_eq_add_one.mpr (by rw [List.length_cons] at hfuel; omega)
  rw [readValue, List.cons_append, skipSpace_cons hspace]
  split
  next heq => exact absurd (List.cons.inj heq).1 hlist
  next heq => exact absurd (List.cons.inj heq).1 hrecord
  next => exact h rest hrest

theorem spells_null : Spells "null".toList .null :=
  .of_readAtom rfl (by decide) (by decide) fun _ _ => rfl

theorem spells_true : Spells "true".toList (.bool true) :=
  .of_readAtom rfl (by decide) (by decide) fun _ _ => rfl

theorem spells_false : Spells "false".toList (.bool false) :=
  .of_readAtom rfl (by decide) (by decide) fun _ _ => rfl

theorem spells_text (s : String) : Spells (quote s) (.text s) := by
  refine .of_readAtom rfl (by decide) (by decide) fun rest _ => ?_
  change readAtom ('"' :: (s.toList.flatMap escapeChar ++ ['"'] ++ rest)) = _
  rw [readAtom, List.append_assoc, List.singleton_append, readString_escaped]
  rfl

theorem exists_head_toString (n : Int) : ∃ c tail, (toString n).toList = c :: tail ∧
    (c = '-' ∨ c.isDigit = true) := by
  cases n with
  | ofNat m =>
      obtain ⟨c, tail, hdigits⟩ :=
        List.exists_cons_of_ne_nil (Nat.toDigits_ne_nil (n := m) (b := 10))
      refine ⟨c, tail, (toList_repr m).trans hdigits, .inr ?_⟩
      exact isDigit_of_mem_toDigits (n := m) (hdigits ▸ List.mem_cons_self)
  | negSucc m => exact ⟨'-', (m + 1).repr.toList, by
      rw [show toString (Int.negSucc m) = "-" ++ (m + 1).repr from rfl, String.toList_append]
      rfl, .inl rfl⟩

theorem spells_integer (n : Int) : Spells (toString n).toList (.integer n) := by
  obtain ⟨c, tail, htext, hhead⟩ := exists_head_toString n
  have hne : ∀ d : Char, d.isDigit = false → d ≠ '-' → c ≠ d := by
    rintro d hdigit hsign rfl
    rcases hhead with rfl | htrue
    · exact hsign rfl
    · exact Bool.false_ne_true (hdigit.symm.trans htrue)
  have hspace : isSpace c = false := by
    simp [isSpace, hne ' ' (by decide) (by decide), hne '\t' (by decide) (by decide),
      hne '\n' (by decide) (by decide), hne '\r' (by decide) (by decide)]
  rw [htext]
  refine .of_readAtom hspace (hne _ (by decide) (by decide)) (hne _ (by decide) (by decide)) ?_
  intro rest hrest
  have hnumber := readNumber_toString n hrest
  rw [htext] at hnumber
  rw [List.cons_append] at hnumber ⊢
  rw [readAtom]
  · exact hnumber
  · exact fun _ h => hne 'n' (by decide) (by decide) (List.cons.inj h).1
  · exact fun _ h => hne 't' (by decide) (by decide) (List.cons.inj h).1
  · exact fun _ h => hne 'f' (by decide) (by decide) (List.cons.inj h).1
  · exact fun _ h => hne '"' (by decide) (by decide) (List.cons.inj h).1

/-! ## Lists -/

theorem readValue_gap_append (hbefore : Gap before) (hafter : Gap after) (h : Spells cs j)
    {c : Char} (hends : ∀ tail, EndsNumber (c :: tail)) (hfuel : 2 * cs.length ≤ fuel) :
    readValue fuel (before ++ cs ++ after ++ c :: rest) = some (j, after ++ c :: rest) := by
  rw [List.append_assoc, List.append_assoc, readValue_append hbefore]
  exact h fuel _ hfuel (endsNumber_append hafter (hends rest))

theorem endsNumber_comma (tail : List Char) : EndsNumber (',' :: tail) :=
  endsNumber_cons rfl (by decide) (by decide) (by decide) tail

theorem endsNumber_bracket (tail : List Char) : EndsNumber (']' :: tail) :=
  endsNumber_cons rfl (by decide) (by decide) (by decide) tail

theorem endsNumber_brace (tail : List Char) : EndsNumber ('\x7d' :: tail) :=
  endsNumber_cons rfl (by decide) (by decide) (by decide) tail

theorem spellsItems_singleton (hbefore : Gap before) (hafter : Gap after) (h : Spells cs j) :
    SpellsItems (before ++ cs ++ after) [j] := by
  intro fuel rest hfuel
  obtain ⟨fuel, rfl⟩ := Nat.exists_eq_add_one.mpr (Nat.zero_lt_of_lt hfuel)
  simp only [List.length_append] at hfuel
  rw [readItems, readValue_gap_append hbefore hafter h endsNumber_bracket (by omega)]
  simp only [Option.bind_some, skipSpace_append hafter, skipSpace_cons (c := ']') rfl]

theorem spellsItems_cons {items : List Json} (hbefore : Gap before) (hafter : Gap after)
    (h : Spells cs j) (hitems : SpellsItems body items) :
    SpellsItems (before ++ cs ++ after ++ ',' :: body) (j :: items) := by
  intro fuel rest hfuel
  obtain ⟨fuel, rfl⟩ := Nat.exists_eq_add_one.mpr (Nat.zero_lt_of_lt hfuel)
  simp only [List.length_append, List.length_cons] at hfuel
  rw [List.append_assoc, List.cons_append, readItems,
    readValue_gap_append hbefore hafter h endsNumber_comma (by omega)]
  simp only [Option.bind_some, skipSpace_append hafter, skipSpace_cons (c := ',') rfl,
    hitems fuel rest (by omega), Option.map_some]

theorem readValue_bracket (fuel : Nat) (cs : List Char) :
    readValue (fuel + 1) ('[' :: cs) =
      match skipSpace cs with
      | ']' :: rest => some (.list [], rest)
      | rest => (readItems fuel rest).map fun (items, rest) => (.list items, rest) := rfl

theorem readItems_bracket (fuel : Nat) (rest : List Char) :
    readItems fuel (']' :: rest) = none := by
  rcases fuel with _ | _ | fuel <;> rfl

theorem spells_list {items : List Json} (h : SpellsItems body items) :
    Spells ('[' :: body ++ [']']) (.list items) := by
  intro fuel rest hfuel _
  simp only [List.length_append, List.length_cons] at hfuel
  obtain ⟨fuel, rfl⟩ : ∃ n, fuel = n + 1 := Nat.exists_eq_add_one.mpr (by omega)
  have hread := h fuel rest (by omega)
  rw [List.append_assoc, List.singleton_append, List.cons_append, readValue_bracket]
  split
  next heq =>
    rw [← readItems_skipSpace, heq, readItems_bracket] at hread
    cases hread
  next => rw [readItems_skipSpace, hread, Option.map_some]

theorem spells_list_nil : Spells "[]".toList (.list []) := by
  intro fuel rest hfuel _
  obtain ⟨fuel, rfl⟩ : ∃ n, fuel = n + 1 :=
    Nat.exists_eq_add_one.mpr (Nat.lt_of_lt_of_le (by decide) hfuel)
  rfl

/-! ## Records -/

theorem readMembers_quoted (hbefore : Gap before) (fuel : Nat) (name : String) (cs : List Char) :
    readMembers (fuel + 1) (before ++ quote name ++ ':' :: cs) =
      (readValue fuel cs).bind fun (value, rest) =>
        match skipSpace rest with
        | ',' :: rest =>
            (readMembers fuel rest).map fun (members, rest) => ((some name, value) :: members, rest)
        | '\x7d' :: rest => some ([(some name, value)], rest)
        | _ => none := by
  have htext : quote name ++ ':' :: cs =
      '"' :: (name.toList.flatMap escapeChar ++ '"' :: ':' :: cs) := by
    simp [quote]
  rw [List.append_assoc, htext, readMembers, skipSpace_append hbefore,
    skipSpace_cons (c := '"') rfl]
  change (readString (name.toList.flatMap escapeChar ++ '"' :: ':' :: cs)).bind _ = _
  rw [readString_escaped, Option.bind_some]
  rfl

theorem spellsMembers_singleton (name : String) (hbefore : Gap before) (hgap : Gap gap)
    (hafter : Gap after) (h : Spells cs j) :
    SpellsMembers (before ++ quote name ++ ':' :: (gap ++ cs ++ after)) [(some name, j)] := by
  intro fuel rest hfuel
  obtain ⟨fuel, rfl⟩ := Nat.exists_eq_add_one.mpr (Nat.zero_lt_of_lt hfuel)
  simp only [List.length_append, List.length_cons] at hfuel
  rw [List.append_assoc, List.cons_append, readMembers_quoted hbefore,
    readValue_gap_append hgap hafter h endsNumber_brace (by omega)]
  simp only [Option.bind_some, skipSpace_append hafter, skipSpace_cons (c := '\x7d') rfl]

theorem spellsMembers_cons (name : String) {members : List (Option String × Json)}
    (hbefore : Gap before) (hgap : Gap gap) (hafter : Gap after) (h : Spells cs j)
    (hmembers : SpellsMembers body members) :
    SpellsMembers (before ++ quote name ++ ':' :: (gap ++ cs ++ after ++ ',' :: body))
      ((some name, j) :: members) := by
  intro fuel rest hfuel
  obtain ⟨fuel, rfl⟩ := Nat.exists_eq_add_one.mpr (Nat.zero_lt_of_lt hfuel)
  simp only [List.length_append, List.length_cons] at hfuel
  rw [List.append_assoc, List.cons_append, readMembers_quoted hbefore, List.append_assoc,
    List.cons_append, readValue_gap_append hgap hafter h endsNumber_comma (by omega)]
  simp only [Option.bind_some, skipSpace_append hafter, skipSpace_cons (c := ',') rfl,
    hmembers fuel rest (by omega), Option.map_some]

theorem readValue_brace (fuel : Nat) (cs : List Char) :
    readValue (fuel + 1) ('\x7b' :: cs) =
      match skipSpace cs with
      | '\x7d' :: rest => some (.record [], rest)
      | rest => (readMembers fuel rest).map fun (members, rest) => (.record members, rest) := rfl

theorem readMembers_brace (fuel : Nat) (rest : List Char) :
    readMembers fuel ('\x7d' :: rest) = none := by
  cases fuel <;> rfl

theorem spells_record {members : List (Option String × Json)} (h : SpellsMembers body members) :
    Spells ('\x7b' :: body ++ ['\x7d']) (.record members) := by
  intro fuel rest hfuel _
  simp only [List.length_append, List.length_cons] at hfuel
  obtain ⟨fuel, rfl⟩ : ∃ n, fuel = n + 1 := Nat.exists_eq_add_one.mpr (by omega)
  have hread := h fuel rest (by omega)
  rw [List.append_assoc, List.singleton_append, List.cons_append, readValue_brace]
  split
  next heq =>
    rw [← readMembers_skipSpace, heq, readMembers_brace] at hread
    cases hread
  next => rw [readMembers_skipSpace, hread, Option.map_some]

theorem spells_record_nil : Spells "\x7b\x7d".toList (.record []) := by
  intro fuel rest hfuel _
  obtain ⟨fuel, rfl⟩ : ∃ n, fuel = n + 1 :=
    Nat.exists_eq_add_one.mpr (Nat.lt_of_lt_of_le (by decide) hfuel)
  rfl

/-! ## Values that are written -/

/-- A value in which every number is an integer, and every string a text. -/
inductive Plain : Json → Prop
  | null : Plain .null
  | bool (b : Bool) : Plain (.bool b)
  | integer (n : Int) : Plain (.integer n)
  | text (s : String) : Plain (.text s)
  | list {items : List Json} (hitems : ∀ item ∈ items, Plain item) : Plain (.list items)
  | record {members : List (String × Json)} (hmembers : ∀ member ∈ members, Plain member.2) :
      Plain (.ofMembers members)

theorem plain_ofInt? (n : Option Int) : Plain (ofInt? n) := by
  cases n with
  | none => exact .null
  | some n => exact .integer n

theorem plain_ofText? (text : Option String) : Plain (ofText? text) := by
  cases text with
  | none => exact .null
  | some text => exact .text text

/-- Printed items, each after a blank, with commas between them. -/
theorem spellsItems_printed (print : Json → List Char) (printItems : List Json → List Char)
    (hone : ∀ item, printItems [item] = before ++ print item)
    (hmore : ∀ item second rest, printItems (item :: second :: rest) =
      before ++ print item ++ ',' :: printItems (second :: rest))
    (hbefore : Gap before) (hafter : Gap after) {items : List Json} (hne : items ≠ [])
    (h : ∀ item ∈ items, Spells (print item) item) :
    SpellsItems (printItems items ++ after) items := by
  induction items with
  | nil => exact absurd rfl hne
  | cons item rest ih =>
      obtain ⟨hitem, hrest⟩ := List.forall_mem_cons.mp h
      cases rest with
      | nil =>
          rw [hone]
          exact spellsItems_singleton hbefore hafter hitem
      | cons second others =>
          have hitems := spellsItems_cons hbefore gap_nil hitem (ih (List.cons_ne_nil _ _) hrest)
          rwa [hmore, List.append_assoc, List.cons_append, ← List.append_nil (before ++ print item)]

/-- Printed members, each after a blank, with commas between them. -/
theorem spellsMembers_printed (print : Json → List Char)
    (printMembers : List (Option String × Json) → List Char)
    (hone : ∀ name value, printMembers [(some name, value)] =
      before ++ quote name ++ ':' :: (gap ++ print value))
    (hmore : ∀ name value second rest, printMembers ((some name, value) :: second :: rest) =
      before ++ quote name ++ ':' :: (gap ++ print value ++ ',' :: printMembers (second :: rest)))
    (hbefore : Gap before) (hgap : Gap gap) (hafter : Gap after) {members : List (String × Json)}
    (hne : members ≠ []) (h : ∀ member ∈ members, Spells (print member.2) member.2) :
    SpellsMembers (printMembers (members.map fun (name, value) => (some name, value)) ++ after)
      (members.map fun (name, value) => (some name, value)) := by
  induction members with
  | nil => exact absurd rfl hne
  | cons member rest ih =>
      obtain ⟨hmember, hrest⟩ := List.forall_mem_cons.mp h
      cases rest with
      | nil =>
          have hmembers := spellsMembers_singleton member.1 hbefore hgap hafter hmember
          rw [List.map_singleton, hone]
          simpa using hmembers
      | cons second others =>
          have hmembers := spellsMembers_cons member.1 hbefore hgap gap_nil hmember
            (ih (List.cons_ne_nil _ _) hrest)
          rw [List.map_cons, List.map_cons, hmore]
          simpa using hmembers

/-- The spelling without spaces. -/
theorem Plain.spells_compact (h : Plain j) : Spells (compact j) j := by
  induction h with
  | null => exact spells_null
  | bool b => cases b <;> [exact spells_false; exact spells_true]
  | integer n => exact spells_integer n
  | text s => exact spells_text s
  | @list items _ ih =>
      cases items with
      | nil => exact spells_list_nil
      | cons item rest =>
          have hitems := spellsItems_printed compact compactItems (fun _ => rfl) (fun _ _ _ => rfl)
            gap_nil gap_nil (List.cons_ne_nil item rest) ih
          rw [List.append_nil] at hitems
          exact spells_list hitems
  | @record members _ ih =>
      cases members with
      | nil => exact spells_record_nil
      | cons member rest =>
          have hmembers := spellsMembers_printed compact compactMembers (fun _ _ => rfl)
            (fun _ _ _ _ => by simp [compactMembers, memberName]) gap_nil gap_nil gap_nil
            (List.cons_ne_nil member rest) ih
          rw [List.append_nil] at hmembers
          exact spells_record hmembers

/-- The spelling over several lines. -/
theorem Plain.spells_indented (h : Plain j) (level : Nat) : Spells (indented level j) j := by
  induction h generalizing level with
  | null => exact spells_null
  | bool b => cases b <;> [exact spells_false; exact spells_true]
  | integer n => exact spells_integer n
  | text s => exact spells_text s
  | @list items _ ih =>
      cases items with
      | nil => exact spells_list_nil
      | cons item rest =>
          exact spells_list (spellsItems_printed (indented (level + 1)) (indentedItems (level + 1))
            (fun _ => rfl) (fun _ _ _ => rfl) (gap_newline _) (gap_newline level)
            (List.cons_ne_nil item rest) fun item hitem => ih item hitem (level + 1))
  | @record members _ ih =>
      cases members with
      | nil => exact spells_record_nil
      | cons member rest =>
          exact spells_record (spellsMembers_printed (indented (level + 1))
            (indentedMembers (level + 1)) (fun _ _ => rfl)
            (fun _ _ _ _ => by simp [indentedMembers, memberName]) (gap_newline _) gap_space
            (gap_newline level) (List.cons_ne_nil member rest)
            fun member hmember => ih member hmember (level + 1))

/-! ## The whole text -/

theorem Spells.parse (h : Spells cs j) : parse (String.ofList cs) = some j := by
  have hread := h (2 * cs.length + 2) [] (by omega) endsNumber_nil
  rw [List.append_nil] at hread
  rw [Json.parse, String.toList_ofList, hread]
  rfl

theorem Plain.parse_render (h : Plain j) : parse (render j) = some j := h.spells_compact.parse

theorem Plain.parse_renderPretty (h : Plain j) : parse (renderPretty j) = some j :=
  (h.spells_indented 0).parse

end Workbench.Json
