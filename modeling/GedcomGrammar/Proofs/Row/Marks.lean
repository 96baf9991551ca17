/-
This file proves that the marks of its items decide what is read from a line.
-/

import GedcomGrammar.Proofs.Row.Rereading
import GedcomGrammar.Row.Mark

namespace GedcomGrammar.Row

namespace Mark

variable {mark : Mark} {texts : List Text}

@[simp] theorem items_append (front back : List Text) :
    mark.items (front ++ back) = mark.items front ++ mark.items back :=
  List.filter_append ..

@[simp] theorem items_singleton (text : Text) :
    mark.items [text] = if ofText text = mark then [text] else [] := by
  by_cases same : ofText text = mark <;> simp [items, same]

@[simp] theorem length_items : (mark.items texts).length = (texts.map ofText).count mark := by
  rw [items, ← List.countP_eq_length_filter, List.count, List.countP_map]
  congr

@[simp] theorem isSome_head?_names :
    (mark.names texts).head?.isSome = decide (0 < (texts.map ofText).count mark) := by
  rw [← length_items, names]
  cases mark.items texts <;> simp

theorem ofText_cons_angle (rest : Text) :
    ofText ('<' :: rest) = if rest.head? = some '<' then .substructure else .value := by
  cases rest with
  | nil => rfl
  | cons second others =>
      by_cases doubled : second = '<'
      · simp [ofText, doubled]
      · simp [ofText, doubled, Ne.symm doubled]

theorem ofText_cons {first : Char} (rest : Text) (other : first ≠ '<') :
    ofText (first :: rest) = if first = '@' then .pointer else .tags := by
  simp [ofText, other, Ne.symm other]

end Mark

/-- A pointer is read by its name, and by whether the word stands before that name. -/
theorem Item.ofPointer_eq (text : Text) : ofPointer text =
    .pointer (Mark.pointer.name text) (decide (xrefWord <+: Mark.inside text)) := by
  unfold ofPointer Mark.name Mark.inside
  dsimp only
  split
  · rename_i type found
    have begins : xrefWord <+: text.trim isPointerMark :=
      ⟨type, (Text.dropLead?_eq_some_iff.mp found).symm⟩
    simp [found, begins]
  · rename_i missing
    have other := Text.isPrefixOf?_eq_none_iff.mp missing
    simp [missing, other]

/-- Each item is read as its mark says. -/
theorem Item.ofText_eq (text : Text) : ofText text =
    match Mark.ofText text with
    | .substructure => .substructure (Mark.substructure.name text)
    | .value => .value (Mark.value.name text)
    | .pointer => .pointer (Mark.pointer.name text) (decide (xrefWord <+: Mark.inside text))
    | .tags => .tags ((Mark.tags.name text).splitOn '|') := by
  unfold ofText
  split
  · rw [Mark.ofText_cons_angle, List.head?_cons, if_pos rfl]
    rfl
  · rename_i rest single
    have alone : rest.head? ≠ some '<' := by
      intro doubled
      obtain ⟨others, rfl⟩ := List.head?_eq_some_iff.mp doubled
      exact single others rfl
    rw [Mark.ofText_cons_angle, if_neg alone]
    rfl
  · rw [Mark.ofText_cons _ (by decide), if_pos rfl]
    exact ofPointer_eq _
  · rename_i notAngle notPointer
    cases text with
    | nil => rfl
    | cons first rest =>
        have opened : first ≠ '<' := by
          rintro rfl
          exact notAngle rest rfl
        have pointed : first ≠ '@' := by
          rintro rfl
          exact notPointer rest rfl
        rw [Mark.ofText_cons rest opened, if_neg pointed]
        rfl

/-- The number of items that are values or pointers, of which a row has one besides its opening. -/
def Mark.targets (texts : List Text) : Nat :=
  (texts.map ofText).count .value + (texts.map ofText).count .pointer

theorem Mark.targets_append (front back : List Text) :
    targets (front ++ back) = targets front + targets back := by
  simp only [targets, List.map_append, List.count_append]
  omega

namespace Draft

/-- What items say together that do not conflict. -/
def gathered (texts : List Text) : Draft where
  tags := tagsIn texts
  value := (Mark.value.names texts).head?
  pointer := (Mark.pointer.items texts).head?.map fun text =>
    (Mark.pointer.name text, decide (xrefWord <+: Mark.inside text))

/-- The first value, the first pointer and the last tags count. -/
theorem gathered_concat (front : List Text) (last : Text) : gathered (front ++ [last]) =
    match Mark.ofText last with
    | .substructure => gathered front
    | .value =>
        { gathered front with value := (gathered front).value.or (some (Mark.value.name last)) }
    | .pointer =>
        { gathered front with
          pointer := (gathered front).pointer.or
            (some (Mark.pointer.name last, decide (xrefWord <+: Mark.inside last))) }
    | .tags => { gathered front with tags := (Mark.tags.name last).splitOn '|' } := by
  cases mark : Mark.ofText last <;> simp [gathered, tagsIn, Mark.names, mark, List.head?_append]

theorem isSome_value_gathered (texts : List Text) :
    (gathered texts).value.isSome = decide (0 < (texts.map Mark.ofText).count .value) := by
  rw [gathered, Mark.isSome_head?_names]

theorem isSome_pointer_gathered (texts : List Text) :
    (gathered texts).pointer.isSome = decide (0 < (texts.map Mark.ofText).count .pointer) := by
  rw [← Mark.length_items]
  cases found : Mark.pointer.items texts <;> simp [gathered, found]

/-- A draft can take a value or a pointer exactly if it has neither. -/
theorem isSome_gathered (texts : List Text) :
    ((gathered texts).value.isSome || (gathered texts).pointer.isSome) =
      decide (0 < Mark.targets texts) := by
  rw [isSome_value_gathered, isSome_pointer_gathered, ← Bool.decide_or, decide_eq_decide,
    Mark.targets]
  omega

theorem gathered_of_free {texts : List Text} (free : Mark.targets texts = 0) :
    (gathered texts).value = none ∧ (gathered texts).pointer = none := by
  have taken := isSome_gathered texts
  simpa [free] using taken

/-- A value or a pointer can be taken in exactly if it is the first. -/
theorem take_first {front : List Text} {last : Text} (one : Mark.targets [last] = 1)
    {taken next : Draft} (same : Mark.targets front = 0 → taken = next) :
    (if (gathered front).value.isSome || (gathered front).pointer.isSome then none
      else some taken) =
        if Mark.targets front + Mark.targets [last] ≤ 1 then some next else none := by
  rw [isSome_gathered, one]
  by_cases free : Mark.targets front = 0
  · rw [same free, free]
    rfl
  · rw [decide_eq_true (Nat.pos_of_ne_zero free), if_pos rfl, if_neg (by omega)]

/-- One more item is added to what the items before it say, unless it conflicts with them. -/
theorem add_gathered {front : List Text} {last : Text}
    (plain : Mark.ofText last ≠ .substructure) (fits : Mark.targets front ≤ 1) :
    (gathered front).add (Item.ofText last) =
      if Mark.targets (front ++ [last]) ≤ 1 then some (gathered (front ++ [last])) else none := by
  rw [Item.ofText_eq, gathered_concat, Mark.targets_append]
  cases mark : Mark.ofText last with
  | substructure => exact absurd mark plain
  | value =>
      refine take_first (by simp [Mark.targets, mark]) fun free => ?_
      rw [(gathered_of_free free).1, Option.none_or]
  | pointer =>
      refine take_first (by simp [Mark.targets, mark]) fun free => ?_
      rw [(gathered_of_free free).2, Option.none_or]
  | tags =>
      have none : Mark.targets [last] = 0 := by simp [Mark.targets, mark]
      rw [none, Nat.add_zero, if_pos fits]
      rfl

/--
The scan of any front part of the items has gathered what that part says.
It has failed exactly if the part has more than one value or pointer.
-/
theorem foldlM_add {texts : List Text} (plain : .substructure ∉ texts.map Mark.ofText) :
    (texts.map Item.ofText).foldlM add {} =
      if Mark.targets texts ≤ 1 then some (gathered texts) else none := by
  induction texts using List.reverseRecOn with
  | nil => rfl
  | append_singleton front last inductionHypothesis =>
      simp only [List.map_append, List.map_cons, List.map_nil, List.mem_append,
        List.mem_singleton, not_or] at plain
      rw [List.map_append, List.foldlM_append, inductionHypothesis plain.1]
      by_cases fits : Mark.targets front ≤ 1
      · rw [if_pos fits, ← add_gathered (Ne.symm plain.2) fits]
        simp
      · rw [if_neg fits, if_neg (by rw [Mark.targets_append]; omega)]
        rfl

end Draft

namespace Kind

/-- Without an opening pointer, the only value or pointer decides the kind. -/
theorem ofMarks?_of_member {texts : List Text} (plain : .substructure ∉ texts.map Mark.ofText)
    (member : (texts.map Mark.ofText).head? ≠ some .pointer) :
    ofMarks? (texts.map Mark.ofText) =
      if Mark.targets texts ≤ 1 then
        some (if (texts.map Mark.ofText).count .value = 1 then .primitiveValue
          else if (texts.map Mark.ofText).count .pointer = 1 then .pointerValue
          else .noValue)
      else none := by
  unfold ofMarks? Mark.targets
  rw [if_neg plain, if_neg member]
  grind

/-- An opening pointer stands for a record, which has at most one value and no other pointer. -/
theorem ofMarks?_of_opening {first : Text} {rest : List Text}
    (plain : .substructure ∉ (first :: rest).map Mark.ofText)
    (opening : Mark.ofText first = .pointer) :
    ofMarks? ((first :: rest).map Mark.ofText) =
      if Mark.targets rest ≤ 1 then
        if 0 < (rest.map Mark.ofText).count .pointer then none
        else some (if (rest.map Mark.ofText).count .value = 0 then .newRecord
          else .newRecordWithValue)
      else none := by
  unfold ofMarks? Mark.targets
  rw [if_neg plain, List.map_cons, opening, List.head?_cons, if_pos rfl, List.count_cons_self,
    List.count_cons_of_ne (by decide)]
  grind

end Kind

namespace Body

/-- The facets that a kind has make a body with these facets, if there are tags. -/
theorem ofFacets_of_fits {kind : Kind} {xref value : Option Text} (tags : List Text)
    (named : xref.isSome = kind.has .xref) (valued : value.isSome = kind.has .value)
    (tagged : (!tags.isEmpty) = kind.has .tags) :
    ∃ body, ofFacets kind xref tags value = .ok body ∧ body.kind = kind ∧ body.xref? = xref ∧
      body.tags = tags ∧ body.value? = value := by
  cases kind <;> cases xref <;> cases tags <;> cases value <;> cases named <;> cases valued <;>
    cases tagged <;> exact ⟨_, rfl, rfl, rfl, rfl, rfl⟩

theorem ofFacets_of_untagged {kind : Kind} {xref value : Option Text}
    (named : xref.isSome = kind.has .xref) (needed : kind.has .tags = true) :
    ofFacets kind xref [] value = .error (.missingFacet kind .tags) := by
  cases kind <;> cases xref <;> cases named <;> cases needed <;> cases value <;> rfl

theorem any_isSubstructure (texts : List Text) :
    (texts.map Item.ofText).any Item.isSubstructure =
      decide (.substructure ∈ texts.map Mark.ofText) := by
  induction texts with
  | nil => rfl
  | cons first rest inductionHypothesis =>
      rw [List.map_cons, List.any_cons, inductionHypothesis, Item.ofText_eq]
      cases mark : Mark.ofText first <;> simp [Item.isSubstructure, mark]

/-- The body that the kind of some items makes of them. -/
def made (texts : List Text) (kind : Kind) : Except RowError (Body × Bool) :=
  (ofFacets kind (kind.xrefIn texts) (tagsIn texts) (kind.valueIn texts)).map
    fun body => (body, prefixedIn texts)

theorem ofItems_of_substructure {texts : List Text}
    (present : .substructure ∈ texts.map Mark.ofText) :
    ofItems (texts.map Item.ofText) =
      (Kind.ofMarks? (texts.map Mark.ofText)).map (made texts) := by
  unfold ofItems Kind.ofMarks?
  rw [any_isSubstructure, decide_eq_true present, if_pos rfl, if_pos present]
  match texts with
  | [] => exact absurd present (by simp)
  | [text] =>
      have mark : Mark.ofText text = .substructure := by simpa [eq_comm] using present
      have item := Item.ofText_eq text
      rw [mark] at item
      simp [item, made, Kind.xrefIn, Kind.valueIn, Kind.has, tagsIn, prefixedIn, Mark.names, mark,
        ofFacets, Tags.ofList?, Except.map]
  | first :: second :: rest => simp

/-- A row that opens no record has at most one value or pointer. -/
theorem member_gathered {texts : List Text} (fits : Mark.targets texts ≤ 1) :
    (Draft.gathered texts).member.map (fun body => (body, (Draft.gathered texts).prefixed)) =
      made texts
        (if (texts.map Mark.ofText).count .value = 1 then .primitiveValue
        else if (texts.map Mark.ofText).count .pointer = 1 then .pointerValue
        else .noValue) := by
  simp only [Mark.targets, ← Mark.length_items] at fits ⊢
  rcases values : Mark.value.items texts with _ | ⟨value, _ | ⟨second, others⟩⟩
  · rcases pointers : Mark.pointer.items texts with _ | ⟨pointer, _ | ⟨second, others⟩⟩
    · simp [made, Draft.member, Draft.gathered, Draft.prefixed, prefixedIn, Kind.xrefIn,
        Kind.valueIn, Kind.has, Mark.names, values, pointers]
    · simp [made, Draft.member, Draft.gathered, Draft.prefixed, prefixedIn, Kind.xrefIn,
        Kind.valueIn, Kind.has, Mark.names, values, pointers]
    · simp [values, pointers] at fits
  · rcases pointers : Mark.pointer.items texts with _ | ⟨pointer, others⟩
    · simp [made, Draft.member, Draft.gathered, Draft.prefixed, prefixedIn, Kind.xrefIn,
        Kind.valueIn, Kind.has, Mark.names, values, pointers]
    · simp [values, pointers] at fits
  · rw [values, List.length_cons, List.length_cons] at fits
    omega

theorem ofItems_of_member {texts : List Text}
    (plain : .substructure ∉ texts.map Mark.ofText)
    (member : (texts.map Mark.ofText).head? ≠ some .pointer) :
    ofItems (texts.map Item.ofText) =
      (Kind.ofMarks? (texts.map Mark.ofText)).map (made texts) := by
  have plainItems : (texts.map Item.ofText).any Item.isSubstructure = false := by
    rw [any_isSubstructure, decide_eq_false plain]
  rw [Kind.ofMarks?_of_member plain member]
  unfold ofItems
  rw [plainItems, if_neg Bool.false_ne_true]
  split
  · rename_i xref prefixed rest items
    cases texts with
    | nil => simp at items
    | cons first others =>
        rw [List.map_cons, List.cons.injEq, Item.ofText_eq] at items
        rw [List.map_cons, List.head?_cons, ne_eq, Option.some.injEq] at member
        cases mark : Mark.ofText first <;> simp_all
  · rw [Draft.foldlM_add plain]
    by_cases fits : Mark.targets texts ≤ 1
    · rw [if_pos fits, if_pos fits, Option.map_some, ← member_gathered fits]
      rfl
    · rw [if_neg fits, if_neg fits]
      rfl

/-- Besides the pointer that opens it, a record has at most one value and no pointer. -/
theorem record_gathered {first : Text} {rest : List Text} (opening : Mark.ofText first = .pointer)
    (fits : Mark.targets rest ≤ 1) :
    ((Draft.gathered rest).record (Mark.pointer.name first)).map
        (·.map fun body => (body, decide (xrefWord <+: Mark.inside first))) =
      if 0 < (rest.map Mark.ofText).count .pointer then none
      else some (made (first :: rest)
        (if (rest.map Mark.ofText).count .value = 0 then .newRecord else .newRecordWithValue)) := by
  have items (mark : Mark) : mark.items (first :: rest) = mark.items [first] ++ mark.items rest :=
    Mark.items_append [first] rest
  simp only [Mark.targets, ← Mark.length_items] at fits ⊢
  rcases pointers : Mark.pointer.items rest with _ | ⟨pointer, others⟩
  · rcases values : Mark.value.items rest with _ | ⟨value, _ | ⟨second, others⟩⟩
    · simp [made, Draft.record, Draft.gathered, prefixedIn, tagsIn, Kind.xrefIn,
        Kind.valueIn, Kind.has, Mark.names, values, pointers, items, opening]
    · simp [made, Draft.record, Draft.gathered, prefixedIn, tagsIn, Kind.xrefIn,
        Kind.valueIn, Kind.has, Mark.names, values, pointers, items, opening]
    · simp [values, pointers] at fits
  · simp [Draft.record, Draft.gathered, pointers]

theorem ofItems_of_opening {first : Text} {rest : List Text}
    (plain : .substructure ∉ (first :: rest).map Mark.ofText)
    (opening : Mark.ofText first = .pointer) :
    ofItems ((first :: rest).map Item.ofText) =
      (Kind.ofMarks? ((first :: rest).map Mark.ofText)).map (made (first :: rest)) := by
  have plainItems : ((first :: rest).map Item.ofText).any Item.isSubstructure = false := by
    rw [any_isSubstructure, decide_eq_false plain]
  have plainRest : .substructure ∉ rest.map Mark.ofText := fun present =>
    plain (List.mem_cons_of_mem _ present)
  have item := Item.ofText_eq first
  rw [opening] at item
  rw [Kind.ofMarks?_of_opening plain opening]
  unfold ofItems
  rw [plainItems, if_neg Bool.false_ne_true, List.map_cons, item]
  dsimp only
  rw [Draft.foldlM_add plainRest]
  by_cases fits : Mark.targets rest ≤ 1
  · rw [if_pos fits, if_pos fits, Option.bind_eq_bind, Option.bind_some]
    have recorded := record_gathered opening fits
    rw [Option.map_eq_bind] at recorded
    refine recorded.trans ?_
    split_ifs <;> rfl
  · rw [if_neg fits, if_neg fits]
    rfl

/-- The marks of the items make a kind, and the kind makes a body of them. -/
theorem ofItems_eq {texts : List Text} (nonempty : texts ≠ []) :
    ofItems (texts.map Item.ofText) =
      (Kind.ofMarks? (texts.map Mark.ofText)).map (made texts) := by
  by_cases plain : .substructure ∈ texts.map Mark.ofText
  · exact ofItems_of_substructure plain
  · obtain ⟨first, rest, rfl⟩ := List.exists_cons_of_ne_nil nonempty
    by_cases opening : Mark.ofText first = .pointer
    · exact ofItems_of_opening plain opening
    · exact ofItems_of_member plain (by simpa using opening)

end Body

/-- Items whose marks make a kind have the opening and the value that the kind needs. -/
theorem Kind.isSome_of_ofMarks? {texts : List Text} {kind : Kind}
    (made : Kind.ofMarks? (texts.map Mark.ofText) = some kind) :
    (kind.xrefIn texts).isSome = kind.has .xref ∧
      (kind.valueIn texts).isSome = kind.has .value := by
  have present (mark : Mark) : (mark.names texts).head?.isSome =
      decide (0 < (texts.map Mark.ofText).count mark) := Mark.isSome_head?_names
  unfold ofMarks? at made
  split_ifs at made with doubled alone opening mixed bare mixed valued pointed <;>
    rw [Option.some.injEq] at made <;> rw [← made]
  · simp [xrefIn, valueIn, has, present, List.count_pos_iff, doubled]
  · have first := List.mem_of_mem_head? opening
    simp [xrefIn, valueIn, has, present, List.count_pos_iff, first, bare]
  · have first := List.mem_of_mem_head? opening
    have value : 0 < (texts.map Mark.ofText).count .value := Nat.pos_of_ne_zero bare
    simp only [xrefIn, valueIn, has, if_true, present, List.count_pos_iff.mpr first, value,
      decide_true, and_self]
  · simp [xrefIn, valueIn, has, present, valued]
  · simp [xrefIn, valueIn, has, present, pointed]
  · have bare : ¬0 < (texts.map Mark.ofText).count .value := by omega
    simp only [xrefIn, valueIn, has, present, bare]
    exact ⟨rfl, rfl⟩

/-- A substructure stands alone, so that it has no tags. -/
theorem Kind.tags_notMem_of_substructure {marks : List Mark}
    (made : ofMarks? marks = some .substructure) : .tags ∉ marks := by
  unfold ofMarks? at made
  split_ifs at made with doubled alone
  · obtain ⟨mark, rfl⟩ := List.length_eq_one_iff.mp alone
    rw [List.mem_singleton] at doubled
    simp [← doubled]
  all_goals simp at made

theorem Kind.has_tags_iff {kind : Kind} : kind.has .tags = true ↔ kind ≠ .substructure := by
  cases kind <;> decide

theorem tagsIn_eq_nil_iff {texts : List Text} :
    tagsIn texts = [] ↔ .tags ∉ texts.map Mark.ofText := by
  rw [← List.count_eq_zero, ← Mark.length_items, List.length_eq_zero_iff, tagsIn, Mark.names]
  rcases List.eq_nil_or_concat (Mark.tags.items texts) with none | ⟨front, last, some⟩
  · simp [none]
  · simp [some, List.splitOn_ne_nil]

theorem eq_level_of_ofText {text : Text} {error : FormatError}
    (bad : Level.ofText text = .error error) : error = .level text := by
  unfold Level.ofText at bad
  split at bad
  · exact absurd bad (by simp)
  · exact absurd bad (by simp)
  · split at bad
    · exact absurd bad (by simp)
    · exact (Except.error.inj bad).symm
  · exact (Except.error.inj bad).symm

theorem eq_count_of_ofText {text : Text} {error : FormatError}
    (bad : Occurrence.ofText text = .error error) : error = .count text := by
  unfold Occurrence.ofText at bad
  split at bad
  · exact (Except.error.inj bad).symm
  · split at bad
    · exact absurd bad (by simp)
    · exact (Except.error.inj bad).symm

/-- Tags are the only facet that items may lack once their marks make a kind. -/
theorem judged_made {line first last : Text} {middle : List Text} {level : Level}
    {occurrence : Occurrence} {kind : Kind} (leveled : Level.ofText first = .ok level)
    (counted : Occurrence.ofText last = .ok occurrence)
    (made : Kind.ofMarks? (middle.map Mark.ofText) = some kind) :
    Judged line first middle last
      (match some (Body.made middle kind) with
      | none => .error (.conflictingDefinition line)
      | some (.error error) => .error error
      | some (.ok (body, prefixed)) => .ok { level, body, occurrence, prefixed }) := by
  obtain ⟨named, valued⟩ := Kind.isSome_of_ofMarks? made
  have tagged : kind = .substructure → tagsIn middle = [] := by
    rintro rfl
    exact tagsIn_eq_nil_iff.mpr (Kind.tags_notMem_of_substructure made)
  by_cases needed : kind.has .tags = true ∧ tagsIn middle = []
  · rw [Body.made, needed.2, Body.ofFacets_of_untagged named needed.1]
    exact .untagged leveled counted made (Kind.has_tags_iff.mp needed.1)
      (tagsIn_eq_nil_iff.mp needed.2)
  · have fits : (!(tagsIn middle).isEmpty) = kind.has .tags := by
      by_cases alone : kind = .substructure
      · rw [tagged alone, alone]
        rfl
      · have wanted := Kind.has_tags_iff.mpr alone
        have some : tagsIn middle ≠ [] := fun none => needed ⟨wanted, none⟩
        simp [wanted, some]
    obtain ⟨body, built, rfl, xref, tags, value⟩ :=
      Body.ofFacets_of_fits (tagsIn middle) named valued fits
    rw [Body.made, built]
    refine .row leveled counted ⟨made, xref, tags, value, rfl⟩ ?_
    rw [or_iff_not_imp_left, ← not_not (a := _ ∈ _), ← tagsIn_eq_nil_iff]
    exact fun composed none => needed ⟨Kind.has_tags_iff.mpr composed, none⟩

/-- Items between two ends are judged by these ends, then by the body that they make. -/
theorem judged_ofItems (line first last : Text) {middle : List Text} (nonempty : middle ≠ []) :
    Judged line first middle last (ofItems line first middle last) := by
  unfold ofItems
  cases leveled : Level.ofText first with
  | error error =>
      rw [eq_level_of_ofText leveled]
      exact .level fun level read => by simp [leveled] at read
  | ok level =>
      cases counted : Occurrence.ofText last with
      | error error =>
          rw [eq_count_of_ofText counted]
          exact .count leveled fun occurrence read => by simp [counted] at read
      | ok occurrence =>
          dsimp only
          rw [Body.ofItems_eq nonempty]
          cases made : Kind.ofMarks? (middle.map Mark.ofText) with
          | none => exact .conflict leveled counted made
          | some kind =>
              rw [Option.map_some]
              exact judged_made leveled counted made

theorem Judged.ne_forbiddenFacet {line first last : Text} {middle : List Text}
    {result : Except RowError Row} (judged : Judged line first middle last result) (kind : Kind)
    (facet : Facet) : result ≠ .error (.forbiddenFacet kind facet) := by
  cases judged <;> simp

theorem ofLine_of_short {line : Text} (short : (line.splitOn ' ').length < 3) :
    ofLine line = .error (.format (.emptyRow line)) := by
  unfold ofLine
  split
  · rename_i parts
    rw [parts, List.length_cons, List.length_cons, List.length_cons] at short
    omega
  · rfl

theorem exists_parts {items : List Text} (long : ¬items.length < 3) :
    ∃ first middle last, middle ≠ [] ∧ items = first :: (middle ++ [last]) := by
  rcases items with _ | ⟨first, rest⟩
  · simp at long
  · rcases List.eq_nil_or_concat rest with rfl | ⟨middle, last, rfl⟩
    · simp at long
    · refine ⟨first, middle, last, ?_, by rw [List.concat_eq_append]⟩
      rintro rfl
      simp at long

/-- A row is read from three items or more, of which it has all that its kind needs. -/
theorem judged_ofLine (line : Text) :
    ((line.splitOn ' ').length < 3 → ofLine line = .error (.format (.emptyRow line))) ∧
      (∀ first middle last, middle ≠ [] → line.splitOn ' ' = first :: (middle ++ [last]) →
        Judged line first middle last (ofLine line)) ∧
      ∀ kind facet, ofLine line ≠ .error (.forbiddenFacet kind facet) := by
  have judged : ∀ first middle last, middle ≠ [] →
      line.splitOn ' ' = first :: (middle ++ [last]) →
      Judged line first middle last (ofLine line) := by
    intro first middle last nonempty parts
    rw [ofLine_of_splitOn nonempty parts]
    exact judged_ofItems line first last nonempty
  refine ⟨ofLine_of_short, judged, fun kind facet => ?_⟩
  by_cases short : (line.splitOn ' ').length < 3
  · rw [ofLine_of_short short]
    simp
  · obtain ⟨first, middle, last, nonempty, parts⟩ := exists_parts short
    exact (judged first middle last nonempty parts).ne_forbiddenFacet kind facet

/-- Tags may follow the opening of a record and its value. -/
example : (ofLine "0 @<XREF:I>@ <NAME> INDI \x7b1:1\x7d".toList).map Row.kind =
    .ok .newRecordWithValue := by decide +kernel

end GedcomGrammar.Row
