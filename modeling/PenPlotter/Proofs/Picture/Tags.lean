import Mathlib.Data.List.Basic
import PenPlotter.Svg

/-!
# The tags of a picture

The *tags* of a text are what stands behind every `<` of it, up to the next `>`.  They can be read
line by line, since a line of a document closes every tag that it opens (`Closed`), and no text of a
document opens one: a label is escaped (`unopened_escaped`), and names and attributes are free of
both characters if the element is *plain*.

**Main statement** (`tags_documentText`): the tags of the text of a plain element are its tags in
the order of the tree, whatever its labels say.
-/

namespace PenPlotter.Svg

open Numeric

/-! ### Tags -/

/-- The tags of a text: what stands behind every `<` of it, up to the next `>`. -/
def tags : List Char → List (List Char)
  | [] => []
  | c :: cs => if c = '<' then cs.takeWhile (· ≠ '>') :: tags cs else tags cs

/-- The tags of the text do not depend on what follows it: it closes all that it opens. -/
def Closed (s : List Char) : Prop := ∀ rest, tags (s ++ rest) = tags s ++ tags rest

/-- The text neither opens nor closes a tag. -/
def Unmarked (s : String) : Prop := ∀ c ∈ s.toList, c ≠ '<' ∧ c ≠ '>'

-- Given by hand: the search may come upon the instance that runs through all characters.
instance (s : String) : Decidable (Unmarked s) := List.decidableBAll _ _

theorem tags_append_of_unopened {s : List Char} (h : ∀ c ∈ s, c ≠ '<') (rest : List Char) :
    tags (s ++ rest) = tags rest := by
  induction s with
  | nil => rfl
  | cons c s ih =>
      obtain ⟨hc, hs⟩ := List.forall_mem_cons.mp h
      rw [List.cons_append, tags, if_neg hc, ih hs]

theorem tags_of_unopened {s : List Char} (h : ∀ c ∈ s, c ≠ '<') : tags s = [] := by
  have := tags_append_of_unopened h []
  rwa [List.append_nil] at this

theorem closed_of_unopened {s : List Char} (h : ∀ c ∈ s, c ≠ '<') : Closed s := fun rest => by
  rw [tags_append_of_unopened h, tags_of_unopened h, List.nil_append]

theorem Closed.append {s t : List Char} (hs : Closed s) (ht : Closed t) : Closed (s ++ t) :=
  fun rest => by rw [List.append_assoc, hs, ht, hs, List.append_assoc]

/-- What stands between `<` and `>` is one tag. -/
theorem tags_tag {tag : List Char} (h : ∀ c ∈ tag, c ≠ '<' ∧ c ≠ '>') (rest : List Char) :
    tags ('<' :: tag ++ '>' :: rest) = tag :: tags rest := by
  have hopen : ∀ c ∈ tag ++ ['>'], c ≠ '<' := by
    intro c hc
    rcases List.mem_append.mp hc with hc | hc
    · exact (h c hc).1
    · rw [List.mem_singleton.mp hc]
      decide
  have htake : (tag ++ '>' :: rest).takeWhile (· ≠ '>') = tag := by
    rw [List.takeWhile_append_of_pos (fun c hc => by simpa using (h c hc).2),
      List.takeWhile_cons_of_neg (by simp), List.append_nil]
  have hrest : tags (tag ++ '>' :: rest) = tags rest := by
    rw [← List.singleton_append, ← List.append_assoc, tags_append_of_unopened hopen]
  rw [List.cons_append, tags, if_pos rfl, htake, hrest]

theorem closed_tag {tag : List Char} (h : ∀ c ∈ tag, c ≠ '<' ∧ c ≠ '>') :
    Closed ('<' :: tag ++ ['>']) := fun rest => by
  rw [List.append_assoc, List.singleton_append, tags_tag h, tags_tag h]
  rfl

/-! ### Unmarked texts -/

theorem Unmarked.append {s t : String} (hs : Unmarked s) (ht : Unmarked t) :
    Unmarked (s ++ t) := by
  intro c hc
  rw [String.toList_append, List.mem_append] at hc
  exact hc.elim (hs c) (ht c)

theorem Unmarked.of_append {s t : String} (h : Unmarked (s ++ t)) : Unmarked s := fun c hc =>
  h c (by rw [String.toList_append]; exact List.mem_append_left _ hc)

/-- Numerals are unmarked. -/
theorem unmarked_decimal (n : Nat) : Unmarked (decimal n) := by
  intro c hc
  rw [decimal, String.toList_ofList] at hc
  have hdigit := isDigit_of_mem_digits hc
  constructor <;> rintro rfl <;> cases hdigit

theorem attributeText_cons (key value : String) (attributes : List (String × String)) :
    attributeText ((key, value) :: attributes) =
      " " ++ key ++ "=\"" ++ value ++ "\"" ++ attributeText attributes := by
  rw [attributeText, List.map_cons, String.join_cons]
  rfl

/-- What is escaped opens no tag. -/
theorem unopened_escaped (s : String) : ∀ c ∈ (escaped s).toList, c ≠ '<' := by
  have hentity {entity : String} (h : Unmarked entity) : ∀ c ∈ entity.toList, c ≠ '<' :=
    fun c hc => (h c hc).1
  have hchar : ∀ d, ∀ c ∈ escapedChar d, c ≠ '<' := by
    intro d
    unfold escapedChar
    split
    · exact hentity (by decide)
    · exact hentity (by decide)
    · exact hentity (by decide)
    case h_4 _ hd _ =>
      intro c hc
      rw [List.mem_singleton.mp hc]
      exact hd
  intro c hc
  rw [escaped, String.toList_ofList, List.mem_flatMap] at hc
  obtain ⟨d, -, hc⟩ := hc
  exact hchar d c hc

/-! ### The tags of a document -/

mutual

/-- The tags of an element, in the order of its text. -/
def Element.tags : Element → List String
  | .leaf name attributes => [name ++ attributeText attributes ++ "/"]
  | .label name _ => [name, "/" ++ name]
  | .group name attributes [] => [name ++ attributeText attributes ++ "/"]
  | .group name attributes children =>
    (name ++ attributeText attributes) :: tagsOfAll children ++ ["/" ++ name]

/-- The tags of elements one after the other. -/
def tagsOfAll : List Element → List String
  | [] => []
  | e :: es => e.tags ++ tagsOfAll es

end

mutual

/-- The names and attributes of the element are unmarked; its texts may be anything. -/
def Element.Plain : Element → Prop
  | .leaf name attributes => Unmarked (name ++ attributeText attributes)
  | .label name _ => Unmarked name
  | .group name attributes children =>
    (Unmarked name ∧ Unmarked (name ++ attributeText attributes)) ∧ PlainAll children

/-- All of the elements are plain. -/
def PlainAll : List Element → Prop
  | [] => True
  | e :: es => e.Plain ∧ PlainAll es

end

/-- The lines hold these tags, and each of them closes what it opens. -/
structure Tagged (lines : List String) (found : List String) : Prop where
  closed : ∀ line ∈ lines, Closed line.toList
  tags : lines.flatMap (fun line => Svg.tags line.toList) = found.map String.toList

theorem Tagged.append {lines lines' found found' : List String} (h : Tagged lines found)
    (h' : Tagged lines' found') : Tagged (lines ++ lines') (found ++ found') where
  closed := List.forall_mem_append.mpr ⟨h.closed, h'.closed⟩
  tags := by rw [List.flatMap_append, h.tags, h'.tags, List.map_append]

/-- A line that is a tag. -/
theorem tagged_tag {tag line : String} (hline : line = "<" ++ tag ++ ">") (h : Unmarked tag) :
    Tagged [line] [tag] := by
  have hchars : line.toList = '<' :: tag.toList ++ ['>'] := by
    rw [hline, String.toList_append, String.toList_append]
    rfl
  refine ⟨?_, ?_⟩
  · intro line' hmem
    rw [List.mem_singleton.mp hmem, hchars]
    exact closed_tag h
  · rw [List.flatMap_singleton, hchars, tags_tag h]
    rfl

/-- A line that is a text between two tags. -/
theorem tagged_label {name : String} (text : String) (h : Unmarked name) :
    Tagged ["<" ++ name ++ ">" ++ escaped text ++ "</" ++ name ++ ">"] [name, "/" ++ name] := by
  have hslash : Unmarked ("/" ++ name) := Unmarked.append (by decide) h
  have hchars : ("<" ++ name ++ ">" ++ escaped text ++ "</" ++ name ++ ">").toList =
      '<' :: name.toList ++ ['>'] ++ ((escaped text).toList ++
        ('<' :: ("/" ++ name).toList ++ ['>'])) := by
    simp [String.toList_append]
  have hclosed : Closed ((escaped text).toList ++ ('<' :: ("/" ++ name).toList ++ ['>'])) :=
    (closed_of_unopened (unopened_escaped text)).append (closed_tag hslash)
  refine ⟨?_, ?_⟩
  · intro line hmem
    rw [List.mem_singleton.mp hmem, hchars]
    exact (closed_tag h).append hclosed
  · rw [List.flatMap_singleton, hchars, List.append_assoc, List.singleton_append, tags_tag h,
      tags_append_of_unopened (unopened_escaped text), tags_tag hslash]
    rfl

mutual

/-- The lines of an element hold its tags. -/
theorem Element.tagged_lines (e : Element) (h : e.Plain) : Tagged e.lines e.tags := by
  match e, h with
  | .leaf name attributes, h =>
      refine tagged_tag ?_ (Unmarked.append h (by decide))
      simp [String.append_assoc]
  | .label name text, h => exact tagged_label text h
  | .group name attributes [], h =>
      refine tagged_tag ?_ (Unmarked.append h.1.2 (by decide))
      simp [String.append_assoc]
  | .group name attributes (e :: es), h =>
      have hopen : Tagged ["<" ++ name ++ attributeText attributes ++ ">"]
          [name ++ attributeText attributes] :=
        tagged_tag (by simp only [String.append_assoc]) h.1.2
      have hslash : "</" = "<" ++ "/" := rfl
      have hclose : Tagged ["</" ++ name ++ ">"] ["/" ++ name] :=
        tagged_tag (by rw [hslash]; simp only [String.append_assoc])
          (Unmarked.append (by decide) h.1.1)
      exact (hopen.append (tagged_linesOfAll (e :: es) h.2)).append hclose

theorem tagged_linesOfAll (es : List Element) (h : PlainAll es) :
    Tagged (linesOfAll es) (tagsOfAll es) := by
  match es, h with
  | [], _ => exact ⟨List.forall_mem_nil _, rfl⟩
  | e :: es, h => exact (e.tagged_lines h.1).append (tagged_linesOfAll es h.2)

end

/-- Lines that are put under each other hold the tags that they hold one by one. -/
theorem Tagged.tags_intercalate {lines found : List String} (h : Tagged lines found)
    (rest : List Char) :
    Svg.tags (['\n'].intercalate (lines.map String.toList) ++ rest) =
      found.map String.toList ++ Svg.tags rest := by
  have hbreak : ∀ c ∈ ['\n'], c ≠ '<' := by simp
  -- What the lines hold is put in terms of the lines, so that the induction is on them alone.
  rw [← h.tags]
  have hclosed := h.closed
  clear h
  induction lines with
  | nil => rfl
  | cons line lines ih =>
      obtain ⟨hline, hlines⟩ := List.forall_mem_cons.mp hclosed
      cases lines with
      | nil => simpa [List.intercalate] using hline rest
      | cons next lines =>
          rw [List.map_cons, List.map_cons, List.intercalate_cons_cons, List.append_assoc,
            List.append_assoc, hline, tags_append_of_unopened hbreak, ← List.map_cons,
            ih hlines]
          simp only [List.flatMap_cons, List.append_assoc]

/-- The declaration that opens a document. -/
def declaration : String := "?xml version=\"1.0\" encoding=\"UTF-8\"?"

/-- **The tags of a document are those of its element**, whatever its texts are. -/
theorem tags_documentText {e : Element} (h : e.Plain) :
    tags e.documentText.toList = (declaration :: e.tags).map String.toList := by
  have hdeclaration : Tagged ["<" ++ declaration ++ ">"] [declaration] :=
    tagged_tag rfl (by decide)
  have hall := (hdeclaration.append (e.tagged_lines h)).tags_intercalate ['\n']
  have hend : tags ['\n'] = [] := rfl
  rw [hend, List.append_nil] at hall
  rw [Element.documentText, String.toList_append, String.toList_intercalate]
  exact hall

end PenPlotter.Svg
