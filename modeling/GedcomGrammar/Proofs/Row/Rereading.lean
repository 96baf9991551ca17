/-
This file proves which written rows read back as themselves.
-/

import GedcomGrammar.Proofs.Row.Legible
import GedcomGrammar.Proofs.Text.Decimals

namespace GedcomGrammar.Row

variable {fair : Text → Prop} [Fair fair]

namespace Item

omit [Fair fair]

theorem trim_valueText {name : Text} (trimmed : Text.Trimmed isAngle name) :
    (valueText name).trim isAngle = name := by
  have kept := Text.trim_append ['<'] ['>'] trimmed (by simp [isAngle]) (by simp [isAngle])
  simpa [valueText] using kept

/-- Angles around a trimmed name make a value, since the name does not begin with an angle. -/
theorem ofText_valueText {name : Text} (trimmed : Text.Trimmed isAngle name) :
    ofText (valueText name) = .value name := by
  have inner := trim_valueText trimmed
  cases name with
  | nil => rfl
  | cons first rest =>
      have single : first ≠ '<' := by
        rintro rfl
        exact absurd (trimmed.head '<' rfl) (by decide)
      simp only [valueText, List.cons_append] at inner ⊢
      unfold ofText
      split
      · rename_i same
        simp only [List.cons.injEq] at same
        exact absurd same.2.1 single
      · rw [inner]
      · rename_i same
        simp at same
      · rename_i notValue _
        exact absurd rfl (notValue _)

theorem ofText_valueText_valueText {label : Text} (trimmed : Text.Trimmed isAngle label) :
    ofText (valueText (valueText label)) = .substructure label := by
  have kept := Text.trim_append ['<', '<'] ['>', '>'] trimmed
    (by simp [isAngle]) (by simp [isAngle])
  have inner : (valueText (valueText label)).trim isAngle = label := by
    simpa [valueText] using kept
  simp only [valueText, List.cons_append] at inner ⊢
  rw [ofText, inner]

/-- A pointer reads back with the spelling that it was written in. -/
theorem ofText_pointerText {prefixed : Bool} {type : Text} (pointer : Pointer fair prefixed type) :
    ofText (pointerText prefixed type) = .pointer type prefixed := by
  have inner : (pointerText prefixed type).trim isPointerMark = pointerInner prefixed type := by
    have kept := Text.trim_append ['@', '<'] ['>', '@'] pointer.trimmed
      (by simp [isPointerMark, isAngle]) (by simp [isPointerMark, isAngle])
    simpa [pointerText, pointerInner] using kept
  have spelled : ofText (pointerText prefixed type) = ofPointer (pointerText prefixed type) := rfl
  rw [spelled, ofPointer, inner]
  cases prefixed with
  | true =>
      have dropped : Text.dropLead? xrefWord (pointerInner true type) = some type := by
        rw [Text.dropLead?_eq_some_iff]
        rfl
      rw [dropped]
  | false =>
      have kept : Text.dropLead? xrefWord (pointerInner false type) = none :=
        Text.isPrefixOf?_eq_none_iff.mpr (pointer.unprefixed rfl)
      rw [kept]
      rfl

/-- Text that begins neither like a value nor like a pointer is a list of tags. -/
theorem ofText_of_head {text : Text} (notValue : text.head? ≠ some '<')
    (notPointer : text.head? ≠ some '@') :
    ofText text = .tags ((text.trim isBracket).splitOn '|') := by
  unfold ofText
  split
  · simp at notValue
  · simp at notValue
  · simp at notPointer
  · rfl

/-- Text that begins like a value or a pointer is no list of tags. -/
theorem ofText_of_ambiguous {text : Text}
    (ambiguous : text.head? = some '<' ∨ text.head? = some '@') :
    (∃ rest, text = '<' :: '<' :: rest ∧ ofText text = .substructure (text.trim isAngle)) ∨
      (∃ name, ofText text = .value name) ∨
      ∃ type prefixed, ofText text = .pointer type prefixed := by
  unfold ofText
  split
  · exact .inl ⟨_, rfl, rfl⟩
  · exact .inr (.inl ⟨_, rfl⟩)
  · right; right
    unfold ofPointer
    dsimp only
    split
    · exact ⟨_, _, rfl⟩
    · exact ⟨_, _, rfl⟩
  · rename_i notValue notPointer
    rcases text with _ | ⟨first, rest⟩
    · simp at ambiguous
    · rcases ambiguous with opened | pointed
      · rw [List.head?_cons, Option.some.injEq] at opened
        exact absurd (by rw [opened]) (notValue rest)
      · rw [List.head?_cons, Option.some.injEq] at pointed
        exact absurd (by rw [pointed]) (notPointer rest)

end Item

/-- A single tag is written without brackets, so it may look like a value or a pointer. -/
def Tags.Ambiguous (tags : Tags) : Prop :=
  tags.others = [] ∧ (tags.first.head? = some '<' ∨ tags.first.head? = some '@')

omit [Fair fair] in
theorem Tags.ofText_text {tags : Tags} (named : TagNames fair tags.toList)
    (clear : ¬tags.Ambiguous) : Item.ofText tags.text = .tags tags.toList := by
  obtain ⟨first, others⟩ := tags
  have split := Text.splitOn_joinWith_of_notMem named.nonempty named.noBar
  cases others with
  | nil =>
      simp only [Ambiguous, true_and, not_or] at clear
      have inner := Text.trim_of_trimmed named.trimmed
      simp only [toList, Text.joinWith, List.intercalate_singleton] at inner split
      rw [text, Item.ofText_of_head clear.1 clear.2, inner, split, toList]
  | cons second rest =>
      have inner := Text.trim_append ['['] [']'] named.trimmed
        (by simp [Item.isBracket]) (by simp [Item.isBracket])
      rw [text, Item.ofText_of_head (by simp) (by simp)]
      rw [List.singleton_append] at inner
      rw [inner, split]

theorem fair_valueText {name : Text} (taken : fair name) : fair (valueText name) :=
  Fair.concat (Fair.cons taken '<' (by decide)) '>' (by decide)

theorem TagNames.fair_text {tags : Tags} (named : TagNames fair tags.toList) : fair tags.text := by
  obtain ⟨first, others⟩ := tags
  have taken := named.fair
  cases others with
  | nil => simpa [Tags.text, Tags.toList, Text.joinWith] using taken
  | cons second rest => exact Fair.concat (Fair.cons taken '[' (by decide)) ']' (by decide)

theorem Pointer.fair_text {prefixed : Bool} {type : Text} (pointer : Pointer fair prefixed type) :
    fair (pointerText prefixed type) := by
  have opened := Fair.cons (Fair.cons pointer.fair '<' (by decide)) '@' (by decide)
  have closed := Fair.concat (Fair.concat opened '>' (by decide)) '@' (by decide)
  simpa [pointerText, pointerInner] using closed

namespace Body

/-- The only tag of a body looks like a value or a pointer. -/
def Ambiguous (body : Body) : Prop :=
  ∃ tag, body.tags = [tag] ∧ (tag.head? = some '<' ∨ tag.head? = some '@')

theorem ambiguous_of_tags {body : Body} {tags : Tags} (same : body.tags = tags.toList)
    (ambiguous : tags.Ambiguous) : body.Ambiguous := by
  refine ⟨tags.first, ?_, ambiguous.2⟩
  rw [same, Tags.toList, ambiguous.1]

theorem items_ne_nil (prefixed : Bool) (body : Body) : body.items prefixed ≠ [] := by
  cases body <;> simp [items]

theorem fair_of_mem_items {prefixed : Bool} {body : Body} (legible : body.Legible fair prefixed)
    {item : Text} (member : item ∈ body.items prefixed) : fair item := by
  cases body with
  | noValue tags =>
      rw [items, List.mem_singleton] at member
      exact member ▸ legible.1.fair_text
  | substructure label =>
      rw [items, List.mem_singleton] at member
      exact member ▸ fair_valueText (fair_valueText legible.1.fair)
  | newRecord xref tags =>
      simp only [items, List.mem_cons, List.not_mem_nil, or_false] at member
      rcases member with rfl | rfl
      · exact legible.1.fair_text
      · exact legible.2.fair_text
  | newRecordWithValue xref tags value =>
      simp only [items, List.mem_cons, List.not_mem_nil, or_false] at member
      rcases member with rfl | rfl | rfl
      · exact legible.1.fair_text
      · exact legible.2.1.fair_text
      · exact fair_valueText legible.2.2.fair
  | pointerValue tags target =>
      simp only [items, List.mem_cons, List.not_mem_nil, or_false] at member
      rcases member with rfl | rfl
      · exact legible.1.fair_text
      · exact legible.2.fair_text
  | primitiveValue tags value =>
      simp only [items, List.mem_cons, List.not_mem_nil, or_false] at member
      rcases member with rfl | rfl
      · exact legible.1.fair_text
      · exact fair_valueText legible.2.1.fair

omit [Fair fair] in
/-- The items of a legible body make that body again, unless its only tag is ambiguous. -/
theorem ofItems_items {prefixed : Bool} {body : Body} (legible : body.Legible fair prefixed)
    (clear : ¬body.Ambiguous) :
    ofItems ((body.items prefixed).map Item.ofText) = some (.ok (body, prefixed)) := by
  cases body with
  | noValue tags =>
      have tagged := Tags.ofText_text legible.1 fun ambiguous =>
        clear (ambiguous_of_tags rfl ambiguous)
      simp [items, tagged, ofItems, Item.isSubstructure, Draft.add, Draft.member, ofFacets,
        Tags.ofList?, Tags.toList, Draft.prefixed, Except.map, legible.2]
  | substructure label =>
      simp [items, Item.ofText_valueText_valueText legible.1.trimmed, ofItems,
        Item.isSubstructure, legible.2]
  | newRecord xref tags =>
      have tagged := Tags.ofText_text legible.2 fun ambiguous =>
        clear (ambiguous_of_tags rfl ambiguous)
      simp [items, Item.ofText_pointerText legible.1, tagged, ofItems, Item.isSubstructure,
        Draft.add, Draft.record, ofFacets, Tags.ofList?, Tags.toList, Except.map]
  | newRecordWithValue xref tags value =>
      have tagged := Tags.ofText_text legible.2.1 fun ambiguous =>
        clear (ambiguous_of_tags rfl ambiguous)
      simp [items, Item.ofText_pointerText legible.1, tagged,
        Item.ofText_valueText legible.2.2.trimmed, ofItems, Item.isSubstructure,
        Draft.add, Draft.record, ofFacets, Tags.ofList?, Tags.toList, Except.map]
  | pointerValue tags target =>
      have tagged := Tags.ofText_text legible.1 fun ambiguous =>
        clear (ambiguous_of_tags rfl ambiguous)
      simp [items, Item.ofText_pointerText legible.2, tagged, ofItems, Item.isSubstructure,
        Draft.add, Draft.member, ofFacets, Tags.ofList?, Tags.toList, Draft.prefixed, Except.map]
  | primitiveValue tags value =>
      have tagged := Tags.ofText_text legible.1 fun ambiguous =>
        clear (ambiguous_of_tags rfl ambiguous)
      simp [items, Item.ofText_valueText legible.2.1.trimmed, tagged, ofItems,
        Item.isSubstructure, Draft.add, Draft.member, ofFacets, Tags.ofList?, Tags.toList,
        Draft.prefixed, Except.map, legible.2.2]

/-- Only tags change the tags of a draft. -/
theorem tags_of_foldlM {parts : List Item} {draft next : Draft}
    (untagged : ∀ names, Item.tags names ∉ parts) (run : parts.foldlM Draft.add draft = some next) :
    next.tags = draft.tags := by
  induction parts generalizing draft with
  | nil => rw [Option.some.inj run]
  | cons item rest inductionHypothesis =>
      rw [List.foldlM_cons, Option.bind_eq_bind, Option.bind_eq_some_iff] at run
      obtain ⟨added, first, later⟩ := run
      have same : added.tags = draft.tags := by
        cases item with
        | substructure label => simp [Draft.add] at first
        | value name =>
            simp only [Draft.add, Option.ite_none_left_eq_some, Option.some.injEq] at first
            rw [← first.2]
        | pointer type spelled =>
            simp only [Draft.add, Option.ite_none_left_eq_some, Option.some.injEq] at first
            rw [← first.2]
        | tags names => exact absurd List.mem_cons_self (untagged names)
      rw [← same]
      exact inductionHypothesis (fun names member => untagged names (List.mem_cons_of_mem _ member))
        later

/-- Items without tags make a body only if they are a single substructure. -/
theorem exists_of_ofItems_untagged {parts : List Item} {body : Body} {prefixed : Bool}
    (untagged : ∀ names, Item.tags names ∉ parts)
    (made : ofItems parts = some (.ok (body, prefixed))) :
    ∃ label, parts = [.substructure label] ∧ body = .substructure label := by
  unfold ofItems at made
  split at made
  · split at made
    · simp only [Option.some.injEq, Except.ok.injEq, Prod.mk.injEq] at made
      exact ⟨_, rfl, made.1.symm⟩
    · simp at made
  · split at made
    · simp only [Option.bind_eq_bind, Option.bind_eq_some_iff, Option.some.injEq] at made
      obtain ⟨draft, drafted, outcome, recorded, same⟩ := made
      obtain ⟨found, rfl, -⟩ := map_eq_ok_iff.mp same
      have bare := tags_of_foldlM
        (fun names member => untagged names (List.mem_cons_of_mem _ member)) drafted
      exact absurd recorded (record_ne_ok bare _ found)
    · simp only [Option.bind_eq_bind, Option.bind_eq_some_iff, Option.some.injEq] at made
      obtain ⟨draft, drafted, same⟩ := made
      obtain ⟨found, member, -⟩ := map_eq_ok_iff.mp same
      exact absurd member (member_ne_ok (tags_of_foldlM untagged drafted) found)

omit [Fair fair] in
/-- A body whose only tag is ambiguous is written without any item that reads as tags. -/
theorem untagged_of_ambiguous {prefixed : Bool} {body : Body} {tag : Text}
    (legible : body.Legible fair prefixed) (single : body.tags = [tag])
    (ambiguous : tag.head? = some '<' ∨ tag.head? = some '@') (names : List Text) :
    Item.tags names ∉ (body.items prefixed).map Item.ofText := by
  have bare : Item.tags names ≠ Item.ofText tag := by
    rcases Item.ofText_of_ambiguous ambiguous with ⟨rest, -, item⟩ | ⟨name, item⟩ |
      ⟨type, spelled, item⟩ <;> simp [item]
  have written (tags : Tags) (same : tags.toList = [tag]) : tags.text = tag := by
    obtain ⟨first, others⟩ := tags
    simp only [Tags.toList, List.cons.injEq] at same
    rw [same.1, same.2]
    rfl
  cases body with
  | noValue tags => simp [items, written tags single, bare]
  | substructure label => simp [tags] at single
  | newRecord xref tags =>
      simp [items, written tags single, bare, Item.ofText_pointerText legible.1]
  | newRecordWithValue xref tags value =>
      simp [items, written tags single, bare, Item.ofText_pointerText legible.1,
        Item.ofText_valueText legible.2.2.trimmed]
  | pointerValue tags target =>
      simp [items, written tags single, bare, Item.ofText_pointerText legible.2]
  | primitiveValue tags value =>
      simp [items, written tags single, bare, Item.ofText_valueText legible.2.1.trimmed]

omit [Fair fair] in
/-- An ambiguous tag makes a body only where it stands alone and looks like a substructure. -/
theorem ofItems_items_of_ambiguous {prefixed again : Bool} {body reread : Body} {tag : Text}
    (legible : body.Legible fair prefixed) (single : body.tags = [tag])
    (ambiguous : tag.head? = some '<' ∨ tag.head? = some '@')
    (made : ofItems ((body.items prefixed).map Item.ofText) = some (.ok (reread, again))) :
    body = .noValue ⟨tag, []⟩ ∧ reread = .substructure (tag.trim Item.isAngle) ∧
      ∃ rest, tag = '<' :: '<' :: rest := by
  obtain ⟨label, alone, rfl⟩ :=
    exists_of_ofItems_untagged (untagged_of_ambiguous legible single ambiguous) made
  cases body with
  | noValue tags =>
      obtain ⟨first, others⟩ := tags
      simp only [tags, Tags.toList, List.cons.injEq] at single
      obtain ⟨rfl, rfl⟩ := single
      have item : Item.ofText first = .substructure label := by
        simpa [items, Tags.text] using alone
      rcases Item.ofText_of_ambiguous ambiguous with ⟨rest, doubled, named⟩ | ⟨name, other⟩ |
        ⟨type, spelled, other⟩
      · rw [item, Item.substructure.injEq] at named
        exact ⟨rfl, by rw [named], rest, doubled⟩
      · exact Item.noConfusion (item.symm.trans other)
      · exact Item.noConfusion (item.symm.trans other)
  | substructure label => simp [tags] at single
  | newRecord xref tags => simp [items] at alone
  | newRecordWithValue xref tags value => simp [items] at alone
  | pointerValue tags target => simp [items] at alone
  | primitiveValue tags value => simp [items] at alone

end Body

/-- The first item of a line is its level, the last one its count. -/
theorem ofLine_of_splitOn {line first last : Text} {middle : List Text} (nonempty : middle ≠ [])
    (split : line.splitOn ' ' = first :: (middle ++ [last])) :
    ofLine line = ofItems line first middle last := by
  obtain ⟨second, others, rfl⟩ := List.exists_cons_of_ne_nil nonempty
  have whole : second :: others ++ [last] = second :: (others ++ [last]) := rfl
  obtain ⟨third, rest, tail⟩ := List.exists_cons_of_ne_nil (show others ++ [last] ≠ [] by simp)
  have final : (third :: rest).getLast (by simp) = last := by
    simp only [← tail]
    exact List.getLast_concat
  have front : (second :: third :: rest).dropLast = second :: others := by
    rw [← tail, ← whole, List.dropLast_concat]
  rw [whole, tail] at split
  unfold ofLine
  rw [split]
  dsimp only
  rw [front, final]

theorem word_level (level : Level) : Word level.text := by
  cases level with
  | root => exact Word.of_notMem (by decide) (by decide) (by decide)
  | relative depth =>
      rw [Level.text]
      split
      · exact Word.of_notMem (by decide) (by decide) (by decide)
      · apply Word.of_notMem <;> simp [Text.notMem_decimal]

theorem word_occurrence (occurrence : Occurrence) : Word occurrence.text := by
  apply Word.of_notMem <;> exact Occurrence.notMem_text (by decide) (by decide) occurrence

/-- The items of a row, its level and its count included. -/
def items (row : Row) : List Text :=
  row.level.text :: row.body.items row.prefixed ++ [row.occurrence.text]

theorem fair_of_mem_rowItems {row : Row} (legible : row.LegibleIn fair) {item : Text}
    (member : item ∈ row.items) : fair item := by
  simp only [items, List.cons_append, List.mem_cons, List.mem_append, List.not_mem_nil,
    or_false] at member
  rcases member with rfl | inside | rfl
  · exact Fair.word (word_level row.level)
  · exact Body.fair_of_mem_items legible inside
  · exact Fair.word (word_occurrence row.occurrence)

theorem splitOn_text {row : Row} (legible : row.LegibleIn fair) :
    row.text.splitOn ' ' =
      row.level.text :: (row.body.items row.prefixed ++ [row.occurrence.text]) :=
  Text.splitOn_joinWith_of_notMem (by simp)
    fun _ member => Fair.noSpace (fair_of_mem_rowItems legible member)

theorem noFeed_text {row : Row} (legible : row.Legible) : '\n' ∉ row.text :=
  Text.notMem_joinWith (by decide) fun _ member => (fair_of_mem_rowItems legible member).noFeed

theorem noMark_text {row : Row} (legible : row.Legible) : ¬headerMark <:+: row.text := by
  intro marked
  obtain ⟨item, member, inside⟩ :=
    (Text.infix_joinWith_iff (by decide) (by decide)).mp marked
  exact (fair_of_mem_rowItems legible member).noMark inside

/-- A written row reads as the body that its items make. -/
theorem ofLine_text {row : Row} (legible : row.LegibleIn fair) :
    ofLine row.text =
      match Body.ofItems ((row.body.items row.prefixed).map Item.ofText) with
      | none => .error (.conflictingDefinition row.text)
      | some (.error error) => .error error
      | some (.ok (body, prefixed)) => .ok { row with body, prefixed } := by
  rw [ofLine_of_splitOn (Body.items_ne_nil _ _) (splitOn_text legible)]
  rcases made : Body.ofItems ((row.body.items row.prefixed).map Item.ofText) with _ | _ | ⟨_, _⟩ <;>
    simp only [ofItems, Level.ofText_text, Occurrence.ofText_text, made]

/-- The only tag of a row looks like a value or a pointer. -/
def Ambiguous (row : Row) : Prop :=
  row.body.Ambiguous

/-- A row without an ambiguous tag reads back as itself. -/
theorem ofLine_text_of_clear {row : Row} (legible : row.LegibleIn fair) (clear : ¬row.Ambiguous) :
    ofLine row.text = .ok row := by
  rw [ofLine_text legible, Body.ofItems_items legible clear]

/-- A row with an ambiguous tag reads back as a substructure, or not at all. -/
theorem ofLine_text_of_ambiguous {row again : Row} {tag : Text} (legible : row.LegibleIn fair)
    (single : row.body.tags = [tag]) (ambiguous : tag.head? = some '<' ∨ tag.head? = some '@')
    (read : ofLine row.text = .ok again) :
    row.body = .noValue ⟨tag, []⟩ ∧ again.body = .substructure (tag.trim Item.isAngle) ∧
      again.level = row.level ∧ again.occurrence = row.occurrence ∧
      ∃ rest, tag = '<' :: '<' :: rest := by
  rw [ofLine_text legible] at read
  split at read
  · exact absurd read (by simp)
  · exact absurd read (by simp)
  · rename_i body prefixed made
    rw [Except.ok.injEq] at read
    obtain ⟨same, reread, doubled⟩ :=
      Body.ofItems_items_of_ambiguous legible single ambiguous made
    rw [← read]
    exact ⟨same, reread, rfl, rfl, doubled⟩

theorem ofLine_text_eq_ok_iff {row : Row} (legible : row.LegibleIn fair) :
    ofLine row.text = .ok row ↔ ¬row.Ambiguous := by
  refine ⟨?_, ofLine_text_of_clear legible⟩
  rintro read ⟨tag, single, ambiguous⟩
  obtain ⟨same, reread, _⟩ := ofLine_text_of_ambiguous legible single ambiguous read
  rw [same] at reread
  exact Body.noConfusion reread

/--
The written form of a row settles at once.
An ambiguous tag does that only if it is the written form of a substructure.
-/
def Settled (row : Row) : Prop :=
  ¬row.Ambiguous ∨ ∃ label, row.body = .noValue ⟨valueText (valueText label), []⟩ ∧
    Text.Trimmed Item.isAngle label

theorem text_substructure_eq_iff {row again : Row} {tag label : Text}
    (old : row.body = .noValue ⟨tag, []⟩) (new : again.body = .substructure label)
    (level : again.level = row.level) (occurrence : again.occurrence = row.occurrence) :
    again.text = row.text ↔ tag = valueText (valueText label) := by
  simp only [text, old, new, level, occurrence, Body.items, Tags.text]
  simp only [Text.joinWith, List.cons_append, List.nil_append, List.intercalate_cons_cons,
    List.intercalate_singleton, List.append_assoc, List.append_cancel_left_eq,
    List.append_cancel_right_eq, List.cons.injEq, true_and]
  exact eq_comm

/-- Exactly the settled rows read back as rows of the same text. -/
theorem settled_iff {row : Row} (legible : row.LegibleIn fair) :
    (∃ again, ofLine row.text = .ok again ∧ again.text = row.text) ↔ row.Settled := by
  constructor
  · intro stays
    obtain ⟨again, read, same⟩ := stays
    by_cases ambiguous : row.Ambiguous
    · obtain ⟨tag, single, looks⟩ := ambiguous
      obtain ⟨old, new, level, occurrence, _⟩ :=
        ofLine_text_of_ambiguous legible single looks read
      rw [text_substructure_eq_iff old new level occurrence] at same
      refine .inr ⟨tag.trim Item.isAngle, ?_, Text.trimmed_trim tag⟩
      rw [old, ← same]
    · exact .inl ambiguous
  · rintro (clear | ⟨label, body, trimmed⟩)
    · exact ⟨row, ofLine_text_of_clear legible clear, rfl⟩
    · refine ⟨{ row with body := .substructure label, prefixed := true }, ?_, ?_⟩
      · rw [ofLine_text legible, body]
        simp [Body.items, Tags.text, Item.ofText_valueText_valueText trimmed, Body.ofItems,
          Item.isSubstructure]
      · refine (text_substructure_eq_iff body ?_ ?_ ?_).mpr rfl <;> rfl

/--
A row of any line reads back as itself exactly if its only tag, if it has one, is not ambiguous.
An ambiguous tag that reads back at all makes a substructure of the row.
-/
theorem rereads_iff {line : Text} {row : Row} (read : ofLine line = .ok row) :
    (ofLine row.text = .ok row ↔ ¬row.Ambiguous) ∧
      ∀ again, ofLine row.text = .ok again → again ≠ row →
        row.kind = .noValue ∧ again.kind = .substructure ∧ again.level = row.level ∧
          again.occurrence = row.occurrence := by
  have legible : row.LegibleIn Unspaced :=
    legibleIn_of_ofLine (fun _ member => Text.notMem_of_mem_splitOn member) read
  refine ⟨ofLine_text_eq_ok_iff legible, fun again reread different => ?_⟩
  by_cases ambiguous : row.Ambiguous
  · obtain ⟨tag, single, looks⟩ := ambiguous
    obtain ⟨old, new, level, occurrence, -⟩ :=
      ofLine_text_of_ambiguous legible single looks reread
    exact ⟨congrArg Body.kind old, congrArg Body.kind new, level, occurrence⟩
  · rw [ofLine_text_of_clear legible ambiguous, Except.ok.injEq] at reread
    exact absurd reread.symm different

/-- A row with an empty tag, a tag with a bracket and a type with a word and a line feed. -/
def oddPointer : Row where
  level := .relative 7
  body := .pointerValue ⟨"A".toList, ["".toList, "]B".toList]⟩ "XREF:N\n".toList
  occurrence := ⟨0, .unlimited⟩

theorem rereads_oddPointer :
    ofLine "+07 [[A||]B] @<XREF:XREF:N\n>> \x7b00:M\x7d\x7d".toList = .ok oddPointer ∧
      ofLine oddPointer.text = .ok oddPointer := by
  have read : ofLine "+07 [[A||]B] @<XREF:XREF:N\n>> \x7b00:M\x7d\x7d".toList =
      .ok oddPointer := by
    decide +kernel
  refine ⟨read, (rereads_iff read).1.mpr ?_⟩
  rintro ⟨tag, single, -⟩
  exact absurd single (by simp [oddPointer, Body.tags, Tags.toList])

/-- A tag in brackets that begins with an angle is written without them and read as a value. -/
theorem bracketed_angle_misread :
    ∃ row, ofLine "+1 [<X] \x7b0:1\x7d".toList = .ok row ∧ row.body = .noValue ⟨"<X".toList, []⟩ ∧
      ofLine row.text = .error (.missingFacet .primitiveValue .tags) :=
  ⟨⟨.relative 1, .noValue ⟨"<X".toList, []⟩, ⟨0, .finite 1⟩, true⟩, by decide +kernel, rfl,
    by decide +kernel⟩

end GedcomGrammar.Row
