import RichDoc.Proofs.Dom.WellFormed
import RichDoc.Proofs.Html.Markup

/-!
# Printed markup is read back

What is printed for a tree is taken apart into the tokens of that tree, whatever stands behind it,
and these tokens are put together into what the tree says. No text, value or name can change that.
-/

namespace RichDoc.Html

/-! ### Characters -/

/-- A character is escaped by a name that the reader knows, or it is printed as it is and is not
special. -/
theorem escapeChar_cases (c : Char) :
    (∃ name, escapeChar c = '&' :: (name ++ [';']) ∧ (∀ c ∈ name, c ≠ ';') ∧
      escaped? name = some c) ∨
      escapeChar c = [c] ∧ isSpecial c = false := by
  unfold escapeChar
  split
  · exact Or.inl ⟨['a', 'm', 'p'], rfl, by simp, rfl⟩
  · exact Or.inl ⟨['l', 't'], rfl, by simp, rfl⟩
  · exact Or.inl ⟨['g', 't'], rfl, by simp, rfl⟩
  · exact Or.inl ⟨['q', 'u', 'o', 't'], rfl, by simp, rfl⟩
  · exact Or.inl ⟨['#', '3', '9'], rfl, by simp, rfl⟩
  · refine Or.inr ⟨rfl, ?_⟩
    simp_all [isSpecial]

/-- Characters of a name are none of those that end it. -/
theorem ne_of_isNameChar {c : Char} (h : isNameChar c = true) :
    c ≠ '>' ∧ c ≠ '/' ∧ c ≠ '=' ∧ c ≠ ' ' := by
  refine ⟨?_, ?_, ?_, ?_⟩
  all_goals
    rintro rfl
    revert h
    decide

theorem isSpecial_eq_false {c : Char} (h : isSpecial c = false) :
    c ≠ '<' ∧ c ≠ '>' ∧ c ≠ '"' ∧ c ≠ '&' := by
  refine ⟨?_, ?_, ?_, ?_⟩
  all_goals
    rintro rfl
    cases h

/-- A character in the middle of a token. -/
theorem tokens_next {mode next : Mode} {c : Char} (h : step mode c = some (next, none))
    (cs : List Char) : tokens mode (c :: cs) = tokens next cs := by
  rw [tokens, h]

/-- The last character of a token. -/
theorem tokens_last {mode next : Mode} {c : Char} {token : Token}
    (h : step mode c = some (next, some token)) (cs : List Char) :
    tokens mode (c :: cs) = (tokens next cs).map (token :: ·) := by
  rw [tokens, h]

/-- What a mode takes in one character at a time, it takes in as a whole. -/
theorem tokens_takeIn {mode : List Char → Mode} {p : Char → Prop}
    (hstep : ∀ taken c, p c → step (mode taken) c = some (mode (taken ++ [c]), none))
    (taken more rest : List Char) (hm : ∀ c ∈ more, p c) :
    tokens (mode taken) (more ++ rest) = tokens (mode (taken ++ more)) rest := by
  induction more generalizing taken with
  | nil => rw [List.append_nil, List.nil_append]
  | cons c more ih =>
    obtain ⟨hc, hm⟩ := List.forall_mem_cons.mp hm
    rw [List.cons_append, tokens_next (hstep taken c hc), ih _ hm, List.append_assoc]
    rfl

/-- The name of an escape is read up to its end. -/
theorem tokens_escape_name (name rest : List Char) (hn : ∀ c ∈ name, c ≠ ';') :
    tokens (.escape []) (name ++ rest) = tokens (.escape name) rest := by
  refine tokens_takeIn (fun taken c hc => ?_) [] name rest hn
  rw [step, if_neg hc]

theorem tokens_valueEscape_name (tag : List Char) (attrs : List (String × String))
    (key value name rest : List Char) (hn : ∀ c ∈ name, c ≠ ';') :
    tokens (.valueEscape tag attrs key value []) (name ++ rest) =
      tokens (.valueEscape tag attrs key value name) rest := by
  refine tokens_takeIn (fun taken c hc => ?_) [] name rest hn
  rw [step, if_neg hc]

/-- An escaped character is read as that character. -/
theorem tokens_char (c : Char) (rest : List Char) :
    tokens .content (escapeChar c ++ rest) = (tokens .content rest).map (.char c :: ·) := by
  rcases escapeChar_cases c with ⟨name, he, hn, hs⟩ | ⟨he, hs⟩
  · have hlast : step (.escape name) ';' = some (.content, some (.char c)) := by
      rw [step, if_pos rfl, hs]
      rfl
    rw [he, List.cons_append, List.append_assoc, List.singleton_append, tokens_next rfl,
      tokens_escape_name _ _ hn, tokens_last hlast]
  · obtain ⟨hlt, -, -, hamp⟩ := isSpecial_eq_false hs
    have hlast : step .content c = some (.content, some (.char c)) := by
      rw [step, if_neg hlt, if_neg hamp, hs]
      rfl
    rw [he, List.singleton_append, tokens_last hlast]

/-- An escaped text is read as its characters. -/
theorem tokens_text (text rest : List Char) :
    tokens .content (text.flatMap escapeChar ++ rest) =
      (tokens .content rest).map (text.map Token.char ++ ·) := by
  induction text with
  | nil => simp
  | cons c text ih =>
    rw [List.flatMap_cons, List.append_assoc, tokens_char, ih, Option.map_map]
    rfl

theorem tokens_valueChar (tag : List Char) (attrs : List (String × String))
    (key value : List Char) (c : Char) (rest : List Char) :
    tokens (.value tag attrs key value) (escapeChar c ++ rest) =
      tokens (.value tag attrs key (value ++ [c])) rest := by
  rcases escapeChar_cases c with ⟨name, he, hn, hs⟩ | ⟨he, hs⟩
  · have hnext : step (.valueEscape tag attrs key value name) ';' =
        some (.value tag attrs key (value ++ [c]), none) := by
      rw [step, if_pos rfl, hs]
      rfl
    rw [he, List.cons_append, List.append_assoc, List.singleton_append, tokens_next rfl,
      tokens_valueEscape_name _ _ _ _ _ _ hn, tokens_next hnext]
  · obtain ⟨-, -, hquote, hamp⟩ := isSpecial_eq_false hs
    have hnext : step (.value tag attrs key value) c =
        some (.value tag attrs key (value ++ [c]), none) := by
      rw [step, if_neg hquote, if_neg hamp, hs]
      rfl
    rw [he, List.singleton_append, tokens_next hnext]

/-- An escaped value is read as its characters. -/
theorem tokens_value (tag : List Char) (attrs : List (String × String))
    (key value text rest : List Char) :
    tokens (.value tag attrs key value) (text.flatMap escapeChar ++ rest) =
      tokens (.value tag attrs key (value ++ text)) rest := by
  induction text generalizing value with
  | nil => simp
  | cons c text ih =>
    rw [List.flatMap_cons, List.append_assoc, tokens_valueChar, ih, List.append_assoc]
    rfl

/-! ### Tags -/

theorem tokens_stop_name (tag rest : List Char) (ht : ∀ c ∈ tag, isNameChar c = true) :
    tokens (.stop []) (tag ++ rest) = tokens (.stop tag) rest := by
  refine tokens_takeIn (fun taken c hc => ?_) [] tag rest ht
  obtain ⟨hgt, -, -, -⟩ := ne_of_isNameChar hc
  rw [step, if_neg hgt, if_pos hc]

theorem tokens_start_name (first tag rest : List Char) (ht : ∀ c ∈ tag, isNameChar c = true) :
    tokens (.start first) (tag ++ rest) = tokens (.start (first ++ tag)) rest := by
  refine tokens_takeIn (fun taken c hc => ?_) first tag rest ht
  obtain ⟨hgt, hslash, -, hspace⟩ := ne_of_isNameChar hc
  rw [step, if_neg hgt, if_neg hslash, if_neg hspace, if_pos hc]

theorem tokens_key_name (tag : List Char) (attrs : List (String × String))
    (key rest : List Char) (hk : ∀ c ∈ key, isNameChar c = true) :
    tokens (.key tag attrs []) (key ++ rest) = tokens (.key tag attrs key) rest := by
  refine tokens_takeIn (fun taken c hc => ?_) [] key rest hk
  obtain ⟨-, -, heq, -⟩ := ne_of_isNameChar hc
  rw [step, if_neg heq, if_pos hc]

/-- An attribute is read with its name and its value. -/
theorem tokens_attribute (tag : List Char) (attrs : List (String × String)) (key value : String)
    (rest : List Char) (hk : isAttrName key = true) :
    tokens (.attrs tag attrs)
        (' ' :: (key.toList ++ ('=' :: '"' :: ((escape value).toList ++ ('"' :: rest))))) =
      tokens (.attrs tag (attrs ++ [(key, value)])) rest := by
  have hchars : ∀ c ∈ key.toList, isNameChar c = true :=
    List.all_eq_true.mp (Bool.and_eq_true_iff.mp hk).2
  rw [tokens_next rfl, tokens_key_name _ _ _ _ hchars, tokens_next rfl, tokens_next rfl, escape,
    String.toList_ofList, tokens_value, tokens_next rfl, List.nil_append, String.ofList_toList,
    String.ofList_toList]

/-- An attribute that can be printed is printed with its name and its escaped value. -/
theorem attributesText_cons {a : Attribute} (h : isAttrName a.name.localName = true)
    (attrs : List Attribute) :
    (attributesText (a :: attrs)).toList =
      ' ' :: (a.name.localName.toList ++
        ('=' :: '"' :: ((escape a.value).toList ++ ('"' :: (attributesText attrs).toList)))) := by
  rw [attributesText, List.filter_cons, if_pos h, List.map_cons, String.join_cons, attributesText]
  simp only [String.toList_append, List.append_assoc]
  rfl

theorem attributesText_cons_skip {a : Attribute} (h : isAttrName a.name.localName = false)
    (attrs : List Attribute) : attributesText (a :: attrs) = attributesText attrs := by
  rw [attributesText, List.filter_cons, if_neg (Bool.eq_false_iff.mp h), attributesText]

/-- The attributes of a tag are read as those that can be printed. -/
theorem tokens_attributes (tag : List Char) (before : List (String × String))
    (attrs : List Attribute) (rest : List Char) :
    tokens (.attrs tag before) ((attributesText attrs).toList ++ rest) =
      tokens (.attrs tag (before ++ keptAttrs attrs)) rest := by
  induction attrs generalizing before with
  | nil => rw [attributesText, keptAttrs]; simp
  | cons a attrs ih =>
    by_cases ha : isAttrName a.name.localName = true
    · have hkept : keptAttrs (a :: attrs) = (a.name.localName, a.value) :: keptAttrs attrs := by
        rw [keptAttrs, List.filter_cons, if_pos ha, List.map_cons, keptAttrs]
      have hone := tokens_attribute tag before a.name.localName a.value
        ((attributesText attrs).toList ++ rest) ha
      rw [attributesText_cons ha, hkept]
      simp only [List.cons_append, List.append_assoc] at hone ⊢
      rw [hone, ih, List.append_assoc]
      rfl
    · have ha := Bool.eq_false_iff.mpr ha
      have hkept : keptAttrs (a :: attrs) = keptAttrs attrs := by
        rw [keptAttrs, List.filter_cons, if_neg (Bool.eq_false_iff.mp ha), keptAttrs]
      rw [attributesText_cons_skip ha, hkept, ih]

/-- The attributes end where the name of the tag ends, if there are none. -/
theorem tokens_start_attributes (tag : List Char) (attrs : List Attribute) (rest : List Char)
    (hr : ∃ c cs, rest = c :: cs ∧ (c = '>' ∨ c = '/')) :
    tokens (.start tag) ((attributesText attrs).toList ++ rest) =
      tokens (.attrs tag (keptAttrs attrs)) rest := by
  have hsame : ∀ c cs, c = '>' ∨ c = '/' ∨ c = ' ' →
      tokens (.start tag) (c :: cs) = tokens (.attrs tag []) (c :: cs) := by
    rintro c cs (rfl | rfl | rfl) <;> rfl
  rw [← List.nil_append (keptAttrs attrs), ← tokens_attributes]
  induction attrs with
  | nil =>
    obtain ⟨c, cs, rfl, hc⟩ := hr
    exact hsame c cs (hc.imp_right Or.inl)
  | cons a attrs ih =>
    by_cases ha : isAttrName a.name.localName = true
    · rw [attributesText_cons ha]
      exact hsame ' ' _ (Or.inr (Or.inr rfl))
    · rw [attributesText_cons_skip (Bool.eq_false_iff.mpr ha)]
      exact ih

/-- Letters can stand in names. -/
theorem isNameChar_of_isLetter {c : Char} (h : isLetter c = true) : isNameChar c = true := by
  have hsmall : c.toNat < 123 := by
    simp only [isLetter, Bool.or_eq_true, Bool.and_eq_true, decide_eq_true_eq, Char.le_def] at h
    rcases h with ⟨-, h⟩ | ⟨-, h⟩
    · exact Nat.lt_succ_of_le h
    · exact Nat.lt_of_le_of_lt h (by decide)
  have hall : ∀ n < 123, isLetter (Char.ofNat n) = true → isNameChar (Char.ofNat n) = true := by
    decide
  have hc := hall c.toNat hsmall
  rw [Char.ofNat_toNat] at hc
  exact hc h

/-- A tag that can be printed is a letter and other characters of names. -/
theorem tag_chars {tag : String} (ht : isTagName tag = true) :
    ∃ c more, tag.toList = c :: more ∧ isLetter c = true ∧ ∀ x ∈ more, isNameChar x = true := by
  unfold isTagName at ht
  split at ht
  · cases ht
  · obtain ⟨hc, hm⟩ := Bool.and_eq_true_iff.mp ht
    exact ⟨_, _, ‹_›, hc, List.all_eq_true.mp hm⟩

/-- An end tag is read as such. -/
theorem tokens_stop_tag {tag : String} (ht : isTagName tag = true) (rest : List Char) :
    tokens .content ('<' :: '/' :: (tag.toList ++ ('>' :: rest))) =
      (tokens .content rest).map (.stop tag :: ·) := by
  obtain ⟨c, more, htag, hc, hm⟩ := tag_chars ht
  have hall : ∀ x ∈ tag.toList, isNameChar x = true := by
    rw [htag]
    exact List.forall_mem_cons.mpr ⟨isNameChar_of_isLetter hc, hm⟩
  rw [tokens_next rfl, tokens_next rfl, tokens_stop_name _ _ hall, tokens_last rfl,
    String.ofList_toList]

/-- The name and the attributes of a start tag are read as such, whether it is closed or not. -/
theorem tokens_open_tag {tag : String} (ht : isTagName tag = true) (attrs : List Attribute)
    (rest : List Char) (hr : ∃ c cs, rest = c :: cs ∧ (c = '>' ∨ c = '/')) :
    tokens .content ('<' :: (tag.toList ++ ((attributesText attrs).toList ++ rest))) =
      tokens (.attrs tag.toList (keptAttrs attrs)) rest := by
  obtain ⟨c, more, htag, hc, hm⟩ := tag_chars ht
  have hslash : c ≠ '/' := by
    rintro rfl
    cases hc
  have hfirst : step .tag c = some (.start [c], none) := by
    rw [step, if_neg hslash, if_pos hc]
  rw [htag, List.cons_append, tokens_next rfl, tokens_next hfirst, tokens_start_name _ _ _ hm,
    List.singleton_append, ← htag, tokens_start_attributes _ _ _ hr]

theorem tokens_start_tag {tag : String} (ht : isTagName tag = true) (attrs : List Attribute)
    (rest : List Char) :
    tokens .content ('<' :: (tag.toList ++ ((attributesText attrs).toList ++ ('>' :: rest)))) =
      (tokens .content rest).map (.start tag (keptAttrs attrs) :: ·) := by
  rw [tokens_open_tag ht attrs _ ⟨_, _, rfl, Or.inl rfl⟩, tokens_last rfl, String.ofList_toList]

theorem tokens_empty_tag {tag : String} (ht : isTagName tag = true) (attrs : List Attribute)
    (rest : List Char) :
    tokens .content
        ('<' :: (tag.toList ++ ((attributesText attrs).toList ++ ('/' :: '>' :: rest)))) =
      (tokens .content rest).map (.empty tag (keptAttrs attrs) :: ·) := by
  rw [tokens_open_tag ht attrs _ ⟨_, _, rfl, Or.inr rfl⟩, tokens_next rfl, tokens_last rfl,
    String.ofList_toList]

/-! ### Trees -/

mutual

/-- The tokens of a printed tree. -/
def treeTokens (style : Style) : Tree → List Token
  | .absent _ => []
  | .node _ .document children => treesTokens style children
  | .node _ (.text text) _ => text.toList.map .char
  | .node _ (.comment _) _ => []
  | .node _ (.element name attrs) children =>
    if isTagName name.localName then
      if isVoid name.localName && children.isEmpty then
        if style.xhtml then [.empty name.localName (keptAttrs attrs)]
        else [.start name.localName (keptAttrs attrs)]
      else
        .start name.localName (keptAttrs attrs) ::
          (treesTokens style children ++ [.stop name.localName])
    else treesTokens style children

/-- The tokens of printed trees. -/
def treesTokens (style : Style) : List Tree → List Token
  | [] => []
  | tree :: rest => treeTokens style tree ++ treesTokens style rest

end

mutual

/-- What is printed for a tree is taken apart into its tokens. -/
theorem tokens_tree (style : Style) : (tree : Tree) → tree.Each NodeData.Uncommented →
    (rest : List Char) →
    tokens .content ((print style tree).toList ++ rest) =
      (tokens .content rest).map (treeTokens style tree ++ ·)
  | .absent _, _, rest => by
    rw [print, treeTokens]
    simp
  | .node _ .document children, h, rest => by
    rw [print, treeTokens]
    exact tokens_trees style children h.2 rest
  | .node _ (.text text) _, _, rest => by
    rw [print, treeTokens, escape, String.toList_ofList]
    exact tokens_text text.toList rest
  | .node _ (.comment _) _, h, _ => by cases h.1
  | .node _ (.element name attrs) children, h, rest => by
    have hchildren := tokens_trees style children h.2
    rw [print, treeTokens]
    by_cases ht : isTagName name.localName = true
    · by_cases hv : (isVoid name.localName && children.isEmpty) = true
      · cases hx : style.xhtml with
        | true =>
          simp only [ht, hv, Bool.not_true, Bool.false_eq_true, ite_false, ite_true,
            String.toList_append, List.append_assoc]
          exact tokens_empty_tag ht attrs rest
        | false =>
          simp only [ht, hv, Bool.not_true, Bool.false_eq_true, ite_false, ite_true,
            String.toList_append, List.append_assoc]
          exact tokens_start_tag ht attrs rest
      · simp only [ht, hv, Bool.not_true, Bool.false_eq_true, ite_false, ite_true,
          String.toList_append, List.append_assoc]
        have hstart := tokens_start_tag ht attrs
          ((printAll style children).toList ++
            ('<' :: '/' :: (name.localName.toList ++ ('>' :: rest))))
        rw [hchildren, tokens_stop_tag ht, Option.map_map, Option.map_map] at hstart
        refine hstart.trans (congrArg (Option.map · (tokens .content rest)) ?_)
        funext more
        simp only [Function.comp_apply, List.cons_append, List.append_assoc, List.nil_append]
    · simp only [ht, Bool.not_false, ite_true]
      exact hchildren rest

/-- What is printed for trees is taken apart into their tokens. -/
theorem tokens_trees (style : Style) : (trees : List Tree) →
    Tree.EachOf NodeData.Uncommented trees → (rest : List Char) →
    tokens .content ((printAll style trees).toList ++ rest) =
      (tokens .content rest).map (treesTokens style trees ++ ·)
  | [], _, rest => by
    rw [printAll, treesTokens]
    simp
  | tree :: trees, h, rest => by
    rw [printAll, treesTokens, String.toList_append, List.append_assoc,
      tokens_tree style tree h.1, tokens_trees style trees h.2, Option.map_map]
    refine congrArg (Option.map · (tokens .content rest)) ?_
    funext more
    exact (List.append_assoc ..).symm

end

/-! ### Putting tokens together -/

/-- Texts put before markup one after another are put there as one. -/
theorem addText_addText (text next : String) (rest : List Markup) :
    addText text (addText next rest) = addText (text ++ next) rest := by
  by_cases ht : text.isEmpty = true
  · rw [String.isEmpty_iff.mp ht, String.empty_append]
    rfl
  · by_cases hn : next.isEmpty = true
    · rw [String.isEmpty_iff.mp hn, String.append_empty]
      rfl
    · have hboth : ¬(text ++ next).isEmpty = true := by
        simp_all
      match rest with
      | [] => simp only [addText, ht, hn, hboth, Bool.false_eq_true, ite_false]
      | .element _ _ _ :: _ => simp only [addText, ht, hn, hboth, Bool.false_eq_true, ite_false]
      | .text _ :: _ =>
        simp only [addText, ht, hn, hboth, Bool.false_eq_true, ite_false, String.append_assoc]

/-- The characters of a text are put together again. -/
theorem assemble_text (style : Style) (text : List Char) (rest : List Token) :
    assemble style (text.map Token.char ++ rest) =
      (assemble style rest).map fun r => (addText (String.ofList text) r.1, r.2) := by
  induction text with
  | nil => simp [addText]
  | cons c text ih =>
    rw [List.map_cons, List.cons_append, assemble, ih]
    cases assemble style rest with
    | none => rfl
    | some r =>
      have h := addText_addText (String.ofList [c]) (String.ofList text) r.1
      rw [← String.ofList_append] at h
      exact congrArg (fun markup => some (markup, r.2)) h

mutual

/-- The tokens of a tree are put together into what the tree says. -/
theorem assemble_tree (style : Style) : (tree : Tree) →
    (style.xhtml = true ∨ tree.Each NodeData.VoidEmpty) → (rest : List Token) →
    assemble style (treeTokens style tree ++ rest) =
      (assemble style rest).map fun r => (addTree tree r.1, r.2)
  | .absent _, _, rest => by
    simp [treeTokens, addTree]
  | .node _ .document children, h, rest => by
    rw [treeTokens]
    simp only [addTree]
    exact assemble_trees style children (h.imp_right And.right) rest
  | .node _ (.text text) _, _, rest => by
    rw [treeTokens, assemble_text, String.ofList_toList]
    simp only [addTree]
  | .node _ (.comment _) _, _, rest => by
    simp [treeTokens, addTree]
  | .node _ (.element name attrs) children, h, rest => by
    have hchildren := assemble_trees style children (h.imp_right And.right)
    rw [treeTokens]
    simp only [addTree]
    by_cases ht : isTagName name.localName = true
    · simp only [ht, ite_true]
      by_cases hv : (isVoid name.localName && children.isEmpty) = true
      · obtain ⟨hvoid, hempty⟩ := Bool.and_eq_true_iff.mp hv
        rw [if_pos hv, List.isEmpty_iff.mp hempty]
        simp only [addTrees]
        cases hx : style.xhtml with
        | true =>
          simp only [ite_true]
          rw [List.singleton_append, assemble]
          cases assemble style rest <;> rfl
        | false =>
          simp only [Bool.false_eq_true, ite_false]
          rw [List.singleton_append, assemble]
          cases assemble style rest with
          | none => rfl
          | some r => simp only [Option.bind_some, readBack, hvoid, hx]; rfl
      · have hopen : (isVoid name.localName && !style.xhtml) = false := by
          rcases h with hx | h
          · rw [hx, Bool.not_true, Bool.and_false]
          · rw [Bool.and_eq_false_iff]
            refine Or.inl (Bool.eq_false_iff.mpr fun hvoid => hv ?_)
            rw [hvoid, h.1 name rfl hvoid]
            rfl
        simp only [hv, Bool.false_eq_true, ite_false]
        rw [List.cons_append, List.append_assoc, assemble, hchildren, List.singleton_append,
          assemble]
        cases assemble style rest with
        | none => rfl
        | some r =>
          simp only [Option.bind_some, readBack, Option.map_some, hopen, Bool.false_eq_true,
            ite_false, ite_true]
    · simp only [ht, Bool.false_eq_true, ite_false]
      exact hchildren rest

theorem assemble_trees (style : Style) : (trees : List Tree) →
    (style.xhtml = true ∨ Tree.EachOf NodeData.VoidEmpty trees) → (rest : List Token) →
    assemble style (treesTokens style trees ++ rest) =
      (assemble style rest).map fun r => (addTrees trees r.1, r.2)
  | [], _, rest => by
    simp [treesTokens, addTrees]
  | tree :: trees, h, rest => by
    rw [treesTokens, List.append_assoc, assemble_tree style tree (h.imp_right And.left),
      assemble_trees style trees (h.imp_right And.right), Option.map_map]
    simp only [addTrees]
    rfl

end

/-- A text put before settled markup leaves it settled. -/
theorem settledAll_addText (text : String) {rest : List Markup} (h : SettledAll rest) :
    SettledAll (addText text rest) := by
  unfold addText
  split
  · exact h
  · rename_i ht
    have ht := Bool.eq_false_iff.mpr ht
    split
    · rename_i next rest
      refine ⟨?_, h.2.1, h.2.2⟩
      rw [Markup.Settled]
      simp_all
    · rename_i hnot
      refine ⟨ht, fun _ next hnext => ?_, h⟩
      match rest, next, hnext with
      | .element _ _ _ :: _, _, rfl => rfl
      | .text next :: rest, _, _ => exact absurd rfl (hnot next rest)

mutual

/-- Normal forms are settled. -/
theorem settledAll_addTree : (tree : Tree) → {rest : List Markup} → SettledAll rest →
    SettledAll (addTree tree rest)
  | .absent _, _, h => h
  | .node _ .document children, _, h => settledAll_addTrees children h
  | .node _ (.text text) _, _, h => settledAll_addText text h
  | .node _ (.comment _) _, _, h => h
  | .node _ (.element name attrs) children, _, h => by
    rw [addTree]
    split
    · exact ⟨settledAll_addTrees children trivial, nofun, h⟩
    · exact settledAll_addTrees children h

theorem settledAll_addTrees : (trees : List Tree) → {rest : List Markup} → SettledAll rest →
    SettledAll (addTrees trees rest)
  | [], _, h => h
  | tree :: trees, _, h => settledAll_addTree tree (settledAll_addTrees trees h)

end

/-- Printed trees are read as what they say. -/
theorem decode_printAll (style : Style) (trees : List Tree)
    (hc : Tree.EachOf NodeData.Uncommented trees)
    (hv : style.xhtml = true ∨ Tree.EachOf NodeData.VoidEmpty trees) :
    decode style (printAll style trees) = some (addTrees trees []) := by
  have htokens := tokens_trees style trees hc []
  have hassemble := assemble_trees style trees hv []
  rw [List.append_nil, tokens, Option.map_some] at htokens
  rw [assemble, Option.map_some] at hassemble
  rw [decode, htokens, Option.bind_some, hassemble]

/-- A printed tree is read as its normal form. -/
theorem decode_print (style : Style) (tree : Tree) (hc : tree.Each NodeData.Uncommented)
    (hv : style.xhtml = true ∨ tree.Each NodeData.VoidEmpty) :
    decode style (print style tree) = some (normalForm tree) := by
  have h := decode_printAll style [tree] ⟨hc, trivial⟩ (hv.imp_right fun hv => ⟨hv, trivial⟩)
  rwa [printAll, printAll, String.append_empty, addTrees, addTrees] at h

/-- Printing loses nothing. The text of a node of a well-formed store is read as the normal form of
what stands below the node, if that holds no comment and, in the style that leaves void elements
open, no void element with children. So nodes with the same text have the same normal form. -/
theorem decode_toHtml {style : Style} {dom : Dom} (hw : dom.WellFormed) {id : NodeId}
    (hid : id < dom.size) (hc : (dom.tree (some id)).Each NodeData.Uncommented)
    (hv : style.xhtml = true ∨ (dom.tree (some id)).Each NodeData.VoidEmpty) :
    dom.Shows id (dom.tree (some id)) ∧
      decode style (toHtml style dom (some id)) = some (normalForm (dom.tree (some id))) ∧
      SettledAll (normalForm (dom.tree (some id))) ∧
      ∀ (other : Dom) (node : NodeId), other.WellFormed → node < other.size →
        (other.tree (some node)).Each NodeData.Uncommented →
        (style.xhtml = true ∨ (other.tree (some node)).Each NodeData.VoidEmpty) →
        toHtml style other (some node) = toHtml style dom (some id) →
        normalForm (other.tree (some node)) = normalForm (dom.tree (some id)) := by
  have hdecode := decode_print style _ hc hv
  refine ⟨hw.tree_shows hid, hdecode, settledAll_addTree _ trivial, ?_⟩
  intro other node _ _ hc' hv' heq
  have hother := decode_print style _ hc' hv'
  rw [toHtml, toHtml] at heq
  rw [heq, hdecode] at hother
  exact (Option.some.inj hother).symm

/-- A paragraph with a quote in a value, an attribute that cannot be printed, and a text. -/
def sampleDom : Dom :=
  ⟨#[⟨.element (.html "p") [⟨.html "id", "a\"b"⟩, ⟨.html "x><b", "c"⟩], none, some 1, some 1, none,
      none⟩,
    ⟨.text "d < e", some 0, none, none, none, none⟩]⟩

theorem sampleDom_parent {id p : NodeId} (h : sampleDom.parent (some id) = some p) :
    id = 1 ∧ p = 0 := by
  match id with
  | 0 => cases h
  | 1 => exact ⟨rfl, (Option.some.inj h).symm⟩
  | n + 2 => cases h

theorem sampleDom_wellFormed : sampleDom.WellFormed where
  children id hid := by
    match id, hid with
    | 0, _ =>
      exact ⟨[1], rfl, rfl, ⟨⟨_, rfl, rfl, rfl, rfl⟩, trivial⟩, List.pairwise_singleton _ _,
        fun other h => List.mem_singleton.mpr (sampleDom_parent h).1⟩
    | 1, _ =>
      refine ⟨[], rfl, rfl, trivial, List.nodup_nil, fun other h => ?_⟩
      cases (sampleDom_parent h).2
  parents id p h := by
    rw [(sampleDom_parent h).2]
    decide
  alone := by decide
  acyclic := Dom.acyclic_of_lt fun id p h => by
    obtain ⟨rfl, rfl⟩ := sampleDom_parent h
    decide

/-- The paragraph is read back without the attribute that is left out. -/
theorem decode_toHtml_sample :
    decode ⟨true⟩ (toHtml ⟨true⟩ sampleDom (some 0)) =
      some [.element "p" [("id", "a\"b")] [.text "d < e"]] := by
  have h := (@decode_toHtml ⟨true⟩ sampleDom sampleDom_wellFormed 0 (by decide)
    ⟨rfl, ⟨rfl, trivial⟩, trivial⟩ (Or.inl rfl)).2.1
  rw [h]
  rfl

end RichDoc.Html
