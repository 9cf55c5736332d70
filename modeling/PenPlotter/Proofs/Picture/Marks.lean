import Mathlib.Algebra.Order.BigOperators.Group.List
import PenPlotter.Proofs.Confinement
import PenPlotter.Proofs.Numeric.Wholes
import PenPlotter.Proofs.Picture.Tags

/-!
# The marks of a picture

The *mark* of a leg is a path through the middles of its pixels; that of a stroke of one point is a
square.  `pictureTags` are the tags that a trace calls for: a group with the mark of every stroke,
and one with the mark of every leg of travel if travel is shown.

The middle of a pixel is written exactly if its coordinates are below `2 ^ 23`, where halves are
numbers of single precision, and otherwise a point is missing (`count_pointText`); so the points of
a path tell whether it is exact (`pathTag_eq_iff`).  Wherever a pixel is, what is written is
unmarked (`unmarked_pointText`).

**Main statement** (`tags_document`): the tags of a picture are those its trace calls for, if every
leg it shows is *drawable*: it has a point, and no coordinate is negative.
-/

namespace PenPlotter.Svg

open Numeric

/-- The middle of a pixel, written exactly. -/
def centreText (q : Point) : String :=
  decimal q.1.toNat ++ ".5," ++ decimal q.2.toNat ++ ".5"

/-- The tag of a path through points that are written in some way. -/
def pathTagBy (written : Point → String) (leg : List Point) : String :=
  "path d=\"M" ++ " L".intercalate (leg.map written) ++ "\"/"

/-- The tag of a path through the middles of pixels, in single precision. -/
def pathTag (leg : List Point) : String := pathTagBy pointText leg

/-- The tag of a path through the exact middles of pixels. -/
def exactPathTag (leg : List Point) : String := pathTagBy centreText leg

/-- The tag of the square of a pixel. -/
def squareTag (q : Point) : String :=
  "rect fill=\"black\" height=\"1\" stroke=\"none\" width=\"1\" x=\"" ++ decimal q.1.toNat
    ++ "\" y=\"" ++ decimal q.2.toNat ++ "\"/"

/-- The tag of a stroke. -/
def strokeTag : List Point → String
  | [q] => squareTag q
  | leg => pathTag leg

/-- The tags of a group with the tag that opens it; without content it closes itself. -/
def groupTags (opening : String) (content : List String) : List String :=
  if content = [] then [opening ++ "/"] else opening :: content ++ ["/g"]

/-- The tag that opens the strokes. -/
def strokesTag : String :=
  "g fill=\"none\" id=\"strokes\" stroke=\"black\" stroke-linecap=\"square\" stroke-width=\"1\""

/-- The tag that opens the travel. -/
def travelTag : String :=
  "g fill=\"none\" id=\"travel\" stroke=\"red\" stroke-dasharray=\"1,1\" stroke-width=\"0.25\""

/-- The tag that opens a document. -/
def canvasTag (canvas : Dimensions) : String :=
  "svg height=\"" ++ decimal canvas.height.toNat ++ "\" viewBox=\"0 0 "
    ++ decimal canvas.width.toNat ++ " " ++ decimal canvas.height.toNat ++ "\" width=\""
    ++ decimal canvas.width.toNat ++ "\" xmlns=\"http://www.w3.org/2000/svg\""

/-- The tags of the title and the description. -/
def captionTags (o : Options) : List String :=
  (if o.title.isSome then ["title", "/title"] else [])
    ++ if o.description.isSome then ["desc", "/desc"] else []

/-- The tags that a trace calls for. -/
def pictureTags (canvas : Dimensions) (t : Trace) (o : Options) : List String :=
  declaration :: canvasTag canvas :: captionTags o
    ++ groupTags strokesTag (t.strokes.map strokeTag)
    ++ (if o.showTravel then groupTags travelTag (t.travel.map pathTag) else [])
    ++ ["/svg"]

/-! ### Coordinates -/

/-- A decimal is written positionally with digits and a point. -/
theorem mem_positional {d : Decimal} {pointZero : Bool} {c : Char}
    (h : c ∈ d.positional pointZero) : c.isDigit = true ∨ c = '.' := by
  have hzero {n : Nat} (hc : c ∈ List.replicate n '0') : c.isDigit = true := by
    rw [List.eq_of_mem_replicate hc]
    rfl
  have hpadded {n m : Nat} (hc : c ∈ List.replicate n '0' ++ digits m) : c.isDigit = true :=
    (List.mem_append.mp hc).elim hzero isDigit_of_mem_digits
  have htail (hc : c ∈ if pointZero then ['.', '0'] else []) : c.isDigit = true ∨ c = '.' := by
    have hc := (List.mem_ite_nil_right.mp hc).2
    rcases List.mem_pair.mp hc with rfl | rfl
    · exact .inr rfl
    · exact .inl rfl
  unfold Decimal.positional at h
  simp only at h
  split at h
  · rcases List.mem_append.mp h with hc | hc
    · exact .inl ((List.mem_append.mp hc).elim isDigit_of_mem_digits hzero)
    · exact htail hc
  · rcases List.mem_append.mp h with hc | hc
    · exact .inl (hpadded (List.mem_of_mem_take hc))
    · rcases List.mem_cons.mp hc with hc | hc
      · exact .inr hc
      · exact .inl (hpadded (List.mem_of_mem_drop hc))

/-- A coordinate is unmarked, whatever the number is. -/
theorem unmarked_written {f : Format} (b : Binary f) : Unmarked (b.written messageStyle) := by
  have hletter {c : Char} (h : c.isDigit = true ∨ c = '.' ∨ c = '-') : c ≠ '<' ∧ c ≠ '>' := by
    rcases h with h | rfl | rfl
    · constructor <;> rintro rfl <;> cases h
    · decide
    · decide
  unfold Binary.written
  split
  · decide
  · split <;> decide
  · intro c hc
    rw [String.toList_ofList] at hc
    rcases List.mem_append.mp hc with hc | hc
    · have hc := (List.mem_ite_nil_right.mp hc).2
      exact hletter (.inr (.inr (List.mem_singleton.mp hc)))
    · exact hletter ((mem_positional hc).imp_right .inl)

theorem unmarked_pointText (q : Point) : Unmarked (pointText q) :=
  ((unmarked_written _).append (by decide)).append (unmarked_written _)

/-- No coordinate of the point is negative. -/
def Nonneg (q : Point) : Prop := 0 ≤ q.1 ∧ 0 ≤ q.2

/-- The middle of the pixel is a number of single precision. -/
def Exact (q : Point) : Prop := (0 ≤ q.1 ∧ q.1 < 8388608) ∧ 0 ≤ q.2 ∧ q.2 < 8388608

theorem written_centre {i : Int} (h : 0 ≤ i) (hi : i < 8388608) :
    (centre i).written messageStyle = decimal i.toNat ++ ".5" := by
  obtain ⟨x, rfl⟩ := Int.eq_ofNat_of_zero_le h
  rw [centre_natCast, written_half (Int.ofNat_lt.mp hi), Int.toNat_natCast]

theorem pointText_eq {q : Point} (h : Exact q) : pointText q = centreText q := by
  have hcomma (s : String) : s ++ ".5" ++ "," = s ++ ".5," := String.append_assoc
  rw [pointText, centreText, written_centre h.1.1 h.1.2, written_centre h.2.1 h.2.2, hcomma,
    ← String.append_assoc]

/-- A path through exact middles is written exactly. -/
theorem pathTag_eq {leg : List Point} (h : ∀ q ∈ leg, Exact q) :
    pathTag leg = exactPathTag leg := by
  rw [pathTag, exactPathTag, pathTagBy, pathTagBy,
    List.map_congr_left fun q hq => pointText_eq (h q hq)]

theorem signedDecimal_of_nonneg {i : Int} (h : 0 ≤ i) : signedDecimal i = decimal i.toNat := by
  have habs : i.natAbs = i.toNat := by omega
  rw [signedDecimal, if_neg (Int.not_lt.mpr h), habs]

/-! ### The tag of a mark -/

theorem intercalate_cons {α : Type} (sep a : List α) (rest : List (List α)) :
    sep.intercalate (a :: rest) = a ++ rest.flatMap (sep ++ ·) := by
  induction rest generalizing a with
  | nil => rw [List.intercalate_singleton, List.flatMap_nil, List.append_nil]
  | cons b rest ih =>
      rw [List.intercalate_cons_cons, ih, List.flatMap_cons, List.append_assoc, List.append_assoc]

/-- The characters of a path, from the first point on. -/
theorem toList_pathTagBy (written : Point → String) (q : Point) (rest : List Point) :
    (pathTagBy written (q :: rest)).toList = "path d=\"M".toList ++ ((written q).toList ++
      (rest.flatMap (fun r => " L".toList ++ (written r).toList) ++ "\"/".toList)) := by
  rw [pathTagBy, String.toList_append, String.toList_append, String.toList_intercalate,
    List.map_cons, List.map_cons, intercalate_cons, List.map_map, List.flatMap_map,
    List.append_assoc, List.append_assoc]
  rfl

theorem unmarked_pathTag (q : Point) (rest : List Point) : Unmarked (pathTag (q :: rest)) := by
  intro c hc
  rw [pathTag, toList_pathTagBy] at hc
  simp only [List.mem_append, List.mem_flatMap] at hc
  rcases hc with hc | hc | ⟨r, -, hc | hc⟩ | hc
  · exact (show Unmarked "path d=\"M" by decide) c hc
  · exact unmarked_pointText q c hc
  · exact (show Unmarked " L" by decide) c hc
  · exact unmarked_pointText r c hc
  · exact (show Unmarked "\"/" by decide) c hc

theorem unmarked_squareTag (q : Point) : Unmarked (squareTag q) :=
  ((((show Unmarked _ by decide).append (unmarked_decimal _)).append (by decide)).append
    (unmarked_decimal _)).append (by decide)

/-- The element consists of one tag. -/
structure Element.Is (e : Element) (tag : String) : Prop where
  plain : e.Plain
  tags : e.tags = [tag]

/-- An element without content consists of the tag that it is written as. -/
theorem Element.leaf_is {name tag : String} {attributes : List (String × String)}
    (h : name ++ attributeText attributes ++ "/" = tag) (htag : Unmarked tag) :
    (Element.leaf name attributes).Is tag where
  plain := Unmarked.of_append (h ▸ htag)
  tags := by rw [Element.tags, h]

theorem path_is (q : Point) (rest : List Point) : (path q rest).Is (pathTag (q :: rest)) := by
  refine Element.leaf_is (String.toList_inj.mp ?_) (unmarked_pathTag q rest)
  rw [pathTag, toList_pathTagBy]
  simp [attributeText, intercalate_cons, List.flatMap_map]

theorem square_text (x y : String) :
    "rect" ++ attributeText [("fill", "black"), ("height", "1"), ("stroke", "none"),
      ("width", "1"), ("x", x), ("y", y)] ++ "/" =
    "rect fill=\"black\" height=\"1\" stroke=\"none\" width=\"1\" x=\"" ++ x ++ "\" y=\"" ++ y
      ++ "\"/" := by
  simp only [attributeText_cons, String.append_assoc]
  rfl

theorem square_is {q : Point} (hx : 0 ≤ q.1) (hy : 0 ≤ q.2) : (square q).Is (squareTag q) := by
  rw [square, signedDecimal_of_nonneg hx, signedDecimal_of_nonneg hy]
  exact Element.leaf_is (square_text _ _) (unmarked_squareTag q)

/-! ### Where paths are exact -/

theorem count_decimal (n : Nat) : (decimal n).toList.count '.' = 0 := by
  refine List.count_eq_zero.mpr fun hmem => ?_
  rw [decimal, String.toList_ofList] at hmem
  exact absurd (isDigit_of_mem_digits hmem) (by decide)

/-- A coordinate is written with a point if and only if its half is a number of single precision. -/
theorem count_written_centre {i : Int} (h : 0 ≤ i) (hi : i < 4294967296) :
    ((centre i).written messageStyle).toList.count '.' = if i < 8388608 then 1 else 0 := by
  split
  case isTrue hsmall =>
    have hhalf : ".5".toList.count '.' = 1 := by decide
    rw [written_centre h hsmall, String.toList_append, List.count_append, count_decimal, hhalf]
  case isFalse hlarge =>
    obtain ⟨x, rfl⟩ := Int.eq_ofNat_of_zero_le h
    rw [centre_natCast]
    exact List.count_eq_zero.mpr
      (not_mem_written_large (Int.ofNat_le.mp (Int.not_lt.mp hlarge)) (Int.ofNat_lt.mp hi))

/-- The coordinates of the point are below `2 ^ 32`. -/
def Bounded (q : Point) : Prop := q.1 < 4294967296 ∧ q.2 < 4294967296

theorem count_pointText {q : Point} (hnonneg : Nonneg q) (hbounded : Bounded q) :
    (pointText q).toList.count '.' =
      (if q.1 < 8388608 then 1 else 0) + if q.2 < 8388608 then 1 else 0 := by
  have hcomma : ",".toList.count '.' = 0 := by decide
  rw [pointText, String.toList_append, String.toList_append, List.count_append, List.count_append,
    count_written_centre hnonneg.1 hbounded.1, count_written_centre hnonneg.2 hbounded.2, hcomma,
    Nat.add_zero]

theorem count_centreText (q : Point) : (centreText q).toList.count '.' = 2 := by
  have hcomma : ".5,".toList.count '.' = 1 := by decide
  have hhalf : ".5".toList.count '.' = 1 := by decide
  simp only [centreText, String.toList_append, List.count_append, count_decimal, hcomma, hhalf]

theorem count_pathTagBy (written : Point → String) (q : Point) (rest : List Point) :
    (pathTagBy written (q :: rest)).toList.count '.' =
      ((q :: rest).map fun r => (written r).toList.count '.').sum := by
  have hopening : "path d=\"M".toList.count '.' = 0 := by decide
  have hbetween : " L".toList.count '.' = 0 := by decide
  have hend : "\"/".toList.count '.' = 0 := by decide
  simp only [toList_pathTagBy, List.count_append, List.count_flatMap, Function.comp_def, hopening,
    hbetween, hend, List.map_cons, List.sum_cons, Nat.zero_add, Nat.add_zero]

/-- A path is written exactly if and only if the middles of all its pixels are numbers of single
precision: every middle that is rounded misses a point. -/
theorem pathTag_eq_iff {leg : List Point} (hne : leg ≠ []) (hnonneg : ∀ q ∈ leg, Nonneg q)
    (hbounded : ∀ q ∈ leg, Bounded q) :
    pathTag leg = exactPathTag leg ↔ ∀ q ∈ leg, Exact q := by
  refine ⟨fun heq => ?_, pathTag_eq⟩
  obtain ⟨q, rest, rfl⟩ := List.exists_cons_of_ne_nil hne
  have hcount := congrArg (fun tag => tag.toList.count '.') heq
  simp only [pathTag, exactPathTag, count_pathTagBy] at hcount
  have hle : ∀ r ∈ q :: rest,
      (pointText r).toList.count '.' ≤ (centreText r).toList.count '.' := by
    intro r hr
    rw [count_pointText (hnonneg r hr) (hbounded r hr), count_centreText]
    split <;> split <;> omega
  intro r hr
  by_contra hrounded
  have hlt : (pointText r).toList.count '.' < (centreText r).toList.count '.' := by
    obtain ⟨hx, hy⟩ := hnonneg r hr
    rw [count_pointText (hnonneg r hr) (hbounded r hr), count_centreText]
    split
    case isTrue hx' =>
      split
      case isTrue hy' => exact absurd ⟨⟨hx, hx'⟩, hy, hy'⟩ hrounded
      case isFalse => omega
    case isFalse => split <;> omega
  exact Nat.ne_of_lt (List.sum_lt_sum _ _ hle ⟨r, hr, hlt⟩) hcount

/-! ### The tags of the drawing -/

/-- The leg can be drawn: it has a point, and no coordinate is negative. -/
structure Drawable (leg : List Point) : Prop where
  ne_nil : leg ≠ []
  nonneg : ∀ q ∈ leg, Nonneg q

/-- A stroke is marked with its tag. -/
theorem strokeMark_is {stroke : List Point} (h : Drawable stroke) :
    ∃ e, strokeMark stroke = some e ∧ e.Is (strokeTag stroke) := by
  cases stroke with
  | nil => exact absurd rfl h.ne_nil
  | cons q rest =>
      cases rest with
      | nil =>
          obtain ⟨hx, hy⟩ := h.nonneg q (List.mem_singleton_self q)
          exact ⟨square q, rfl, square_is hx hy⟩
      | cons r rest => exact ⟨path q (r :: rest), rfl, path_is q (r :: rest)⟩

/-- A leg of travel is marked with the tag of its path. -/
theorem travelMark_is {leg : List Point} (hlong : 2 ≤ leg.length) :
    ∃ e, travelMark leg = some e ∧ e.Is (pathTag leg) := by
  match leg, hlong with
  | q :: r :: rest, _ => exact ⟨path q (r :: rest), rfl, path_is q (r :: rest)⟩

/-- The elements are plain and have these tags. -/
structure Shows (es : List Element) (found : List String) : Prop where
  plain : PlainAll es
  tags : tagsOfAll es = found

theorem Shows.append {es es' : List Element} {found found' : List String} (h : Shows es found)
    (h' : Shows es' found') : Shows (es ++ es') (found ++ found') := by
  induction es generalizing found with
  | nil =>
      obtain rfl := h.tags
      exact h'
  | cons e es ih =>
      obtain ⟨⟨he, hes⟩, rfl⟩ := h
      have hrest := ih ⟨hes, rfl⟩
      refine ⟨⟨he, hrest.plain⟩, ?_⟩
      rw [List.cons_append, tagsOfAll, hrest.tags, tagsOfAll, List.append_assoc]

theorem shows_nil : Shows [] [] := ⟨trivial, rfl⟩

theorem shows_singleton {e : Element} (h : e.Plain) : Shows [e] e.tags :=
  ⟨⟨h, trivial⟩, List.append_nil _⟩

/-- Marks show one tag each. -/
theorem shows_marks {legs : List (List Point)} {mark : List Point → Option Element}
    {tag : List Point → String} (h : ∀ leg ∈ legs, ∃ e, mark leg = some e ∧ e.Is (tag leg)) :
    Shows (legs.filterMap mark) (legs.map tag) := by
  induction legs with
  | nil => exact shows_nil
  | cons leg legs ih =>
      obtain ⟨⟨e, hmark, he⟩, hlegs⟩ := List.forall_mem_cons.mp h
      have hall := (shows_singleton he.plain).append (ih hlegs)
      rw [he.tags] at hall
      rw [List.filterMap_cons_some hmark]
      exact hall

theorem Element.tags_ne_nil (e : Element) : e.tags ≠ [] := by
  match e with
  | .leaf .. | .label .. | .group _ _ [] | .group _ _ (_ :: _) => simp [Element.tags]

theorem Element.tags_group (name : String) (attributes : List (String × String))
    {es : List Element} (h : es ≠ []) : (Element.group name attributes es).tags =
      (name ++ attributeText attributes) :: tagsOfAll es ++ ["/" ++ name] := by
  cases es with
  | nil => exact absurd rfl h
  | cons e es => simp only [Element.tags]

/-- A group shows its content between its own tags. -/
theorem shows_group {opening : String} {attributes : List (String × String)} {es : List Element}
    {found : List String} (hopening : "g" ++ attributeText attributes = opening)
    (hplain : Unmarked opening) (h : Shows es found) :
    Shows [.group "g" attributes es] (groupTags opening found) := by
  obtain ⟨hes, rfl⟩ := h
  have htags : (Element.group "g" attributes es).tags = groupTags opening (tagsOfAll es) := by
    cases es with
    | nil => rw [Element.tags, hopening]; rfl
    | cons e es =>
        have hsome : tagsOfAll (e :: es) ≠ [] :=
          fun hnil => e.tags_ne_nil (List.append_eq_nil_iff.mp hnil).1
        rw [Element.tags_group _ _ (List.cons_ne_nil e es), hopening, groupTags, if_neg hsome]
        rfl
  rw [← htags]
  exact shows_singleton ⟨⟨by decide, hopening ▸ hplain⟩, hes⟩

/-- Every leg of the trace can be drawn, travel as a path. -/
structure Faithful (t : Trace) : Prop where
  strokes : ∀ stroke ∈ t.strokes, Drawable stroke
  travel : ∀ leg ∈ t.travel, Drawable leg ∧ 2 ≤ leg.length

/-- The captions of a picture. -/
def captions (o : Options) : List Element :=
  (o.title.map (Element.label "title")).toList
    ++ (o.description.map (Element.label "desc")).toList

theorem shows_captions (o : Options) : Shows (captions o) (captionTags o) := by
  obtain ⟨title, description, showTravel⟩ := o
  refine Shows.append ?_ ?_
  · cases title with
    | none => exact shows_nil
    | some text => exact shows_singleton (show Unmarked "title" by decide)
  · cases description with
    | none => exact shows_nil
    | some text => exact shows_singleton (show Unmarked "desc" by decide)

/-- The attributes of a document. -/
def canvasAttributes (canvas : Dimensions) : List (String × String) :=
  [("height", decimal canvas.height.toNat),
    ("viewBox", "0 0 " ++ decimal canvas.width.toNat ++ " " ++ decimal canvas.height.toNat),
    ("width", decimal canvas.width.toNat), ("xmlns", "http://www.w3.org/2000/svg")]

theorem canvas_text (canvas : Dimensions) :
    "svg" ++ attributeText (canvasAttributes canvas) = canvasTag canvas := by
  unfold canvasAttributes canvasTag
  generalize decimal canvas.width.toNat = w
  generalize decimal canvas.height.toNat = h
  simp only [attributeText_cons, String.append_assoc]
  rfl

theorem unmarked_canvasTag (canvas : Dimensions) : Unmarked (canvasTag canvas) := by
  have hw := unmarked_decimal canvas.width.toNat
  have hh := unmarked_decimal canvas.height.toNat
  exact ((((((((show Unmarked _ by decide).append hh).append (by decide)).append hw).append
    (by decide)).append hh).append (by decide)).append hw).append (by decide)

/-- **The tags of a picture are those its trace calls for.** -/
theorem tags_document {canvas : Dimensions} {t : Trace} (h : Faithful t) (o : Options) :
    tags (document canvas t o).documentText.toList =
      (pictureTags canvas t o).map String.toList := by
  have hstrokes : Shows [strokeGroup t.strokes] (groupTags strokesTag (t.strokes.map strokeTag)) :=
    shows_group rfl (by decide) (shows_marks fun stroke hs => strokeMark_is (h.strokes stroke hs))
  have htravel : Shows (if o.showTravel then [travelGroup t.travel] else [])
      (if o.showTravel then groupTags travelTag (t.travel.map pathTag) else []) := by
    split
    · exact shows_group rfl (by decide)
        (shows_marks fun leg hleg => travelMark_is (h.travel leg hleg).2)
    · exact shows_nil
  obtain ⟨hplain, htags⟩ := ((shows_captions o).append hstrokes).append htravel
  have hdocument : document canvas t o = .group "svg" (canvasAttributes canvas)
      (captions o ++ [strokeGroup t.strokes]
        ++ if o.showTravel then [travelGroup t.travel] else []) := rfl
  rw [hdocument, tags_documentText, Element.tags_group _ _ (by simp), canvas_text, htags]
  · rfl
  · exact ⟨⟨by decide, canvas_text canvas ▸ unmarked_canvasTag canvas⟩, hplain⟩

end PenPlotter.Svg
