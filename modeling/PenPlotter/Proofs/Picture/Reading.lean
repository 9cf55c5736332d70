import Mathlib.Data.List.TakeWhile
import PenPlotter.Proofs.Picture.Marks

/-!
# Reading a picture

A drawing can be read off the tags of its picture.  The marks of a group are cut out behind the tag
that opens it (`inGroup_append`), since nothing else opens that group.  A mark gives back its leg
(`strokeTag_inj`, `pathTag_inj`), since every numeral in it ends where something else than a digit
begins; of a path this can only be said if it is *exact*, with all its points below `2 ^ 23`.  So
pictures with the same tags are for the same canvas and show the same exact drawing
(`pictureTags_inj`).

**Main statement** (`svg_tells`): what the text of a picture says of the drawing, for every program
whose replay succeeds.  From `2 ^ 23` on drawings that differ can have one picture (`svg_far`).
-/

namespace PenPlotter.Svg

open Numeric

/-! ### Reading the drawing off its tags -/

/-- The tag opens a path or a rectangle. -/
def isMark (tag : String) : Bool :=
  tag.toList.take 4 == "path".toList || tag.toList.take 4 == "rect".toList

/-- The tag opens the group, whether it has content or closes itself. -/
def Opens (opening tag : String) : Prop := opening.toList <+: tag.toList

instance (opening tag : String) : Decidable (Opens opening tag) :=
  inferInstanceAs (Decidable (_ <+: _))

/-- The marks of a group. -/
def inGroup (opening : String) (found : List String) : List String :=
  (found.dropWhile (¬ Opens opening ·)).tail.takeWhile isMark

theorem take_append {s : String} (h : 4 ≤ s.toList.length) (t : String) :
    (s ++ t).toList.take 4 = s.toList.take 4 := by
  rw [String.toList_append, List.take_append_of_le_length h]

-- What is written of numbers is made a variable, here and below, so that no step computes it.
theorem take_pathTag (leg : List Point) : (pathTag leg).toList.take 4 = "path".toList := by
  unfold pathTag pathTagBy
  generalize " L".intercalate (leg.map pointText) = points
  simp only [String.append_assoc]
  exact take_append (by decide) _

theorem take_squareTag (q : Point) : (squareTag q).toList.take 4 = "rect".toList := by
  unfold squareTag
  generalize decimal q.1.toNat = x
  generalize decimal q.2.toNat = y
  simp only [String.append_assoc]
  exact take_append (by decide) _

theorem take_canvasTag (canvas : Dimensions) :
    (canvasTag canvas).toList.take 4 = "svg ".toList := by
  unfold canvasTag
  generalize decimal canvas.width.toNat = w
  generalize decimal canvas.height.toNat = h
  simp only [String.append_assoc]
  exact take_append (by decide) _

theorem isMark_pathTag (leg : List Point) : isMark (pathTag leg) = true := by
  unfold isMark
  rw [take_pathTag]
  rfl

theorem isMark_squareTag (q : Point) : isMark (squareTag q) = true := by
  unfold isMark
  rw [take_squareTag]
  rfl

theorem isMark_canvasTag (canvas : Dimensions) : isMark (canvasTag canvas) = false := by
  unfold isMark
  rw [take_canvasTag]
  rfl

theorem isMark_strokeTag (stroke : List Point) : isMark (strokeTag stroke) = true := by
  unfold strokeTag
  split
  · exact isMark_squareTag _
  · exact isMark_pathTag _

theorem mem_captionTags {o : Options} {tag : String} (h : tag ∈ captionTags o) :
    tag ∈ ["title", "/title"] ++ ["desc", "/desc"] := by
  unfold captionTags at h
  rcases List.mem_append.mp h with h | h
  · exact List.mem_append_left _ ((List.mem_ite_nil_right.mp h).2)
  · exact List.mem_append_right _ ((List.mem_ite_nil_right.mp h).2)

theorem isMark_captionTags {o : Options} : ∀ tag ∈ captionTags o, isMark tag = false := by
  have hcaption : ∀ tag ∈ ["title", "/title"] ++ ["desc", "/desc"], isMark tag = false := by decide
  exact fun tag htag => hcaption tag (mem_captionTags htag)

/-- Nothing but its content in a group is a mark. -/
theorem filter_isMark_groupTags {opening : String} {marks : List String}
    (hopening : isMark opening = false) (hclosed : isMark (opening ++ "/") = false)
    (hmarks : ∀ mark ∈ marks, isMark mark = true) :
    (groupTags opening marks).filter isMark = marks := by
  have hend : isMark "/g" = false := by decide
  unfold groupTags
  split
  case isTrue h => rw [h, List.filter_singleton, hclosed]; rfl
  case isFalse =>
    rw [List.cons_append, List.filter_cons_of_neg (by simp [hopening]), List.filter_append,
      List.filter_eq_self.mpr hmarks, List.filter_singleton, hend]
    exact List.append_nil _

/-- Nothing in a picture is a mark but those of the strokes and of the travel that is shown. -/
theorem filter_isMark_pictureTags (canvas : Dimensions) (t : Trace) (o : Options) :
    (pictureTags canvas t o).filter isMark =
      t.strokes.map strokeTag ++ if o.showTravel then t.travel.map pathTag else [] := by
  have hstrokes : (groupTags strokesTag (t.strokes.map strokeTag)).filter isMark =
      t.strokes.map strokeTag :=
    filter_isMark_groupTags (by decide) (by decide)
      (List.forall_mem_map.mpr fun stroke _ => isMark_strokeTag stroke)
  have htravel : (groupTags travelTag (t.travel.map pathTag)).filter isMark =
      t.travel.map pathTag :=
    filter_isMark_groupTags (by decide) (by decide)
      (List.forall_mem_map.mpr fun leg _ => isMark_pathTag leg)
  have hcaptions : (captionTags o).filter isMark = [] :=
    List.filter_eq_nil_iff.mpr fun tag htag => by simp [isMark_captionTags tag htag]
  have hdeclaration : isMark declaration = false := by decide
  have hend : isMark "/svg" = false := by decide
  simp only [pictureTags, List.filter_append, List.filter_cons, isMark_canvasTag, hdeclaration,
    hcaptions, hstrokes, hend, List.filter_nil, List.append_nil, List.nil_append,
    Bool.false_eq_true, if_false, List.cons_append]
  split <;> simp only [htravel, List.filter_nil]

theorem opens_self (opening : String) : Opens opening opening := List.prefix_rfl

theorem opens_slash (opening : String) : Opens opening (opening ++ "/") := by
  rw [Opens, String.toList_append]
  exact List.prefix_append _ _

/-- What begins differently opens none of the groups. -/
theorem not_opens_of_take {opening tag : String}
    (hopening : opening.toList.take 4 = "g fi".toList) (htag : tag.toList.take 4 ≠ "g fi".toList) :
    ¬ Opens opening tag := by
  rintro ⟨rest, hrest⟩
  have hlong : 4 ≤ opening.toList.length := by
    have hlength := congrArg List.length hopening
    rw [List.length_take] at hlength
    have hfour : "g fi".toList.length = 4 := rfl
    omega
  rw [← hrest, List.take_append_of_le_length hlong] at htag
  exact htag hopening

/-- A mark opens no group. -/
theorem not_opens_of_isMark {opening tag : String}
    (hopening : opening.toList.take 4 = "g fi".toList) (htag : isMark tag = true) :
    ¬ Opens opening tag := by
  refine not_opens_of_take hopening fun hgroup => ?_
  unfold isMark at htag
  rw [hgroup] at htag
  exact absurd htag (by decide)

theorem exists_groupTags_eq_cons (opening : String) (content : List String) :
    ∃ first rest, groupTags opening content = first :: rest ∧
      (first = opening ∨ first = opening ++ "/") := by
  unfold groupTags
  split
  · exact ⟨_, _, rfl, .inr rfl⟩
  · exact ⟨_, _, rfl, .inl rfl⟩

theorem mem_groupTags {opening tag : String} {content : List String}
    (h : tag ∈ groupTags opening content) :
    tag = opening ∨ tag = opening ++ "/" ∨ tag = "/g" ∨ tag ∈ content := by
  unfold groupTags at h
  split at h
  · exact .inr (.inl (List.mem_singleton.mp h))
  · rw [List.mem_append, List.mem_cons, List.mem_singleton] at h
    tauto

/-- A group can be cut out behind tags that do not open it, if no mark follows it. -/
theorem inGroup_append {opening : String} {before marks after : List String}
    (hbefore : ∀ tag ∈ before, ¬ Opens opening tag) (hmarks : ∀ mark ∈ marks, isMark mark = true)
    (hafter : ∀ tag ∈ after.head?, isMark tag = false) :
    inGroup opening (before ++ groupTags opening marks ++ after) = marks := by
  have hskip {first : String} (hfirst : Opens opening first) (rest : List String) :
      ((before ++ first :: rest).dropWhile (¬ Opens opening ·)).tail = rest := by
    rw [List.dropWhile_append_of_pos fun tag htag => by simpa using hbefore tag htag,
      List.dropWhile_cons_of_neg (by simpa using hfirst), List.tail_cons]
  have hend : isMark "/g" = false := by decide
  unfold inGroup groupTags
  split
  case isTrue h =>
    rw [List.append_assoc, List.singleton_append, hskip (opens_slash opening), h]
    cases after with
    | nil => rfl
    | cons tag after => exact List.takeWhile_cons_of_neg (by simp [hafter tag rfl])
  case isFalse =>
    rw [List.append_assoc, List.cons_append, List.cons_append, hskip (opens_self opening),
      List.append_assoc, List.takeWhile_append_of_pos hmarks, List.singleton_append,
      List.takeWhile_cons_of_neg (by simp [hend]), List.append_nil]

/-! ### Marks are told apart -/

/-- A numeral ends where something else than a digit begins. -/
theorem digits_append_inj {m n : Nat} {c d : Char} {s t : List Char} (hc : c.isDigit = false)
    (hd : d.isDigit = false) (h : digits m ++ c :: s = digits n ++ d :: t) :
    m = n ∧ c :: s = d :: t := by
  have htake {k : Nat} {e : Char} (he : e.isDigit = false) (u : List Char) :
      (digits k ++ e :: u).takeWhile Char.isDigit = digits k := by
    rw [List.takeWhile_append_of_pos fun _ => isDigit_of_mem_digits,
      List.takeWhile_cons_of_neg (by rw [he]; exact Bool.false_ne_true), List.append_nil]
  obtain rfl : m = n := digits_injective (by rw [← htake hc s, h, htake hd t])
  exact ⟨rfl, List.append_cancel_left h⟩

theorem Nonneg.eq_of_toNat {q r : Point} (hq : Nonneg q) (hr : Nonneg r)
    (hx : q.1.toNat = r.1.toNat) (hy : q.2.toNat = r.2.toNat) : q = r := by
  have := hq.1
  have := hq.2
  have := hr.1
  have := hr.2
  exact Prod.ext (by omega) (by omega)

theorem toList_decimal (n : Nat) : (decimal n).toList = digits n := String.toList_ofList

theorem toList_centreText (q : Point) : (centreText q).toList =
    digits q.1.toNat ++ '.' :: '5' :: ',' :: (digits q.2.toNat ++ ['.', '5']) := by
  simp only [centreText, String.toList_append, toList_decimal, List.append_assoc]
  rfl

/-- A middle ends by itself, whatever follows. -/
theorem centreText_append_inj {q r : Point} {s t : List Char} (hq : Nonneg q) (hr : Nonneg r)
    (h : (centreText q).toList ++ s = (centreText r).toList ++ t) : q = r ∧ s = t := by
  simp only [toList_centreText, List.append_assoc, List.cons_append] at h
  obtain ⟨hx, h⟩ := digits_append_inj rfl rfl h
  simp only [List.cons.injEq, true_and] at h
  obtain ⟨hy, h⟩ := digits_append_inj rfl rfl h
  simp only [List.cons.injEq, true_and] at h
  exact ⟨hq.eq_of_toNat hr hx hy, h⟩

theorem middles_inj {rest rest' : List Point} (hrest : ∀ r ∈ rest, Nonneg r)
    (hrest' : ∀ r ∈ rest', Nonneg r)
    (h : rest.flatMap (fun r => " L".toList ++ (centreText r).toList) ++ "\"/".toList =
      rest'.flatMap (fun r => " L".toList ++ (centreText r).toList) ++ "\"/".toList) :
    rest = rest' := by
  induction rest generalizing rest' with
  | nil =>
      cases rest' with
      | nil => rfl
      | cons r' rest' => cases congrArg List.head? h
  | cons r rest ih =>
      cases rest' with
      | nil => cases congrArg List.head? h
      | cons r' rest' =>
          obtain ⟨hr, hmore⟩ := List.forall_mem_cons.mp hrest
          obtain ⟨hr', hmore'⟩ := List.forall_mem_cons.mp hrest'
          rw [List.flatMap_cons, List.flatMap_cons, List.append_assoc, List.append_assoc,
            List.append_assoc, List.append_assoc] at h
          obtain ⟨rfl, htail⟩ := centreText_append_inj hr hr' (List.append_cancel_left h)
          rw [ih hmore hmore' htail]

/-- A leg that can be read off its mark: it can be drawn, exactly if it is drawn as a path. -/
structure Legible (leg : List Point) : Prop extends Drawable leg where
  exact : 2 ≤ leg.length → ∀ q ∈ leg, Exact q

theorem pathTag_inj {leg leg' : List Point} (hleg : Legible leg) (hleg' : Legible leg')
    (hlong : 2 ≤ leg.length) (hlong' : 2 ≤ leg'.length) (h : pathTag leg = pathTag leg') :
    leg = leg' := by
  rw [pathTag_eq (hleg.exact hlong), pathTag_eq (hleg'.exact hlong')] at h
  obtain ⟨q, rest, rfl⟩ := List.exists_cons_of_ne_nil hleg.ne_nil
  obtain ⟨q', rest', rfl⟩ := List.exists_cons_of_ne_nil hleg'.ne_nil
  obtain ⟨hq, hrest⟩ := List.forall_mem_cons.mp hleg.nonneg
  obtain ⟨hq', hrest'⟩ := List.forall_mem_cons.mp hleg'.nonneg
  have hchars := congrArg String.toList h
  rw [exactPathTag, exactPathTag, toList_pathTagBy, toList_pathTagBy] at hchars
  obtain ⟨rfl, htail⟩ := centreText_append_inj hq hq' (List.append_cancel_left hchars)
  rw [middles_inj hrest hrest' htail]

theorem toList_squareTag (q : Point) : (squareTag q).toList =
    "rect fill=\"black\" height=\"1\" stroke=\"none\" width=\"1\" x=\"".toList ++
      (digits q.1.toNat ++ '"' :: (" y=\"".toList ++ (digits q.2.toNat ++ '"' :: ['/']))) := by
  have hmiddle : "\" y=\"".toList = '"' :: " y=\"".toList := rfl
  have hend : "\"/".toList = '"' :: ['/'] := rfl
  unfold squareTag
  rw [String.toList_append, String.toList_append, String.toList_append, String.toList_append,
    toList_decimal, toList_decimal, hmiddle, hend, List.append_assoc, List.append_assoc,
    List.append_assoc, List.cons_append]

theorem squareTag_inj {q r : Point} (hq : Nonneg q) (hr : Nonneg r)
    (h : squareTag q = squareTag r) : q = r := by
  have hchars := congrArg String.toList h
  rw [toList_squareTag, toList_squareTag] at hchars
  obtain ⟨hx, htail⟩ := digits_append_inj rfl rfl (List.append_cancel_left hchars)
  obtain ⟨hy, -⟩ := digits_append_inj rfl rfl
    (List.append_cancel_left (List.cons.inj htail).2)
  exact hq.eq_of_toNat hr hx hy

theorem strokeTag_inj {stroke stroke' : List Point} (h : Legible stroke) (h' : Legible stroke')
    (heq : strokeTag stroke = strokeTag stroke') : stroke = stroke' := by
  -- A square and a path begin differently, so the two strokes are of one kind.
  have hkinds (q : Point) (leg : List Point) : squareTag q ≠ pathTag leg := by
    intro hsame
    have hstart := congrArg (fun tag => tag.toList.take 4) hsame
    rw [take_squareTag, take_pathTag] at hstart
    exact absurd hstart (by decide)
  match stroke, stroke', h, h' with
  | [], _, h, _ => exact absurd rfl h.ne_nil
  | _, [], _, h' => exact absurd rfl h'.ne_nil
  | [q], [r], h, h' =>
      rw [squareTag_inj (h.nonneg q (List.mem_singleton_self q))
        (h'.nonneg r (List.mem_singleton_self r)) heq]
  | [q], r :: r' :: rest, _, _ => exact absurd heq (hkinds _ _)
  | q :: q' :: rest, [r], _, _ => exact absurd heq.symm (hkinds _ _)
  | q :: q' :: rest, r :: r' :: rest', h, h' =>
      exact pathTag_inj h h' (Nat.le_add_left 2 _) (Nat.le_add_left 2 _) heq

theorem toList_canvasTag (canvas : Dimensions) : (canvasTag canvas).toList =
    "svg height=\"".toList ++ (digits canvas.height.toNat ++ '"' :: (" viewBox=\"0 0 ".toList ++
      (digits canvas.width.toNat ++ ' ' :: (digits canvas.height.toNat ++
        ("\" width=\"".toList ++ (digits canvas.width.toNat ++
          "\" xmlns=\"http://www.w3.org/2000/svg\"".toList)))))) := by
  have hbox : "\" viewBox=\"0 0 ".toList = '"' :: " viewBox=\"0 0 ".toList := rfl
  have hspace : " ".toList = [' '] := rfl
  unfold canvasTag
  generalize hw : decimal canvas.width.toNat = w
  generalize hh : decimal canvas.height.toNat = h
  rw [← toList_decimal, ← toList_decimal, hw, hh]
  simp only [String.toList_append, List.append_assoc]
  rfl

theorem canvasTag_inj {canvas canvas' : Dimensions} (h : canvasTag canvas = canvasTag canvas') :
    canvas = canvas' := by
  have hchars := congrArg String.toList h
  rw [toList_canvasTag, toList_canvasTag] at hchars
  obtain ⟨hheight, htail⟩ := digits_append_inj rfl rfl (List.append_cancel_left hchars)
  obtain ⟨hwidth, -⟩ := digits_append_inj rfl rfl (List.append_cancel_left (List.cons.inj htail).2)
  cases canvas
  cases canvas'
  rw [Dimensions.mk.injEq]
  exact ⟨UInt32.toNat_inj.mp hwidth, UInt32.toNat_inj.mp hheight⟩

theorem map_inj_of_forall {α β : Type} {P : α → Prop} {f : α → β}
    (hf : ∀ a b, P a → P b → f a = f b → a = b) {as bs : List α} (has : ∀ a ∈ as, P a)
    (hbs : ∀ b ∈ bs, P b) (h : as.map f = bs.map f) : as = bs := by
  induction as generalizing bs with
  | nil => exact (List.map_eq_nil_iff.mp h.symm).symm
  | cons a as ih =>
      obtain ⟨b, bs, rfl, hab, hrest⟩ := List.map_eq_cons_iff.mp h.symm
      obtain ⟨ha, has⟩ := List.forall_mem_cons.mp has
      obtain ⟨hb, hbs⟩ := List.forall_mem_cons.mp hbs
      rw [hf a b ha hb hab.symm, ih has hbs hrest.symm]

/-! ### The drawing of a picture -/

section Picture

variable {canvas canvas' : Dimensions} {t t' : Trace} {o o' : Options}

/-- What stands before the groups opens none of them. -/
theorem not_opens_frame {opening : String} (hopening : opening.toList.take 4 = "g fi".toList) :
    ∀ tag ∈ declaration :: canvasTag canvas :: captionTags o, ¬ Opens opening tag := by
  have hcaption : ∀ tag ∈ ["title", "/title"] ++ ["desc", "/desc"],
      tag.toList.take 4 ≠ "g fi".toList := by decide
  refine List.forall_mem_cons.mpr ⟨?_, List.forall_mem_cons.mpr ⟨?_, fun tag htag => ?_⟩⟩
  · exact not_opens_of_take hopening (by decide)
  · exact not_opens_of_take hopening (by rw [take_canvasTag]; decide)
  · exact not_opens_of_take hopening (hcaption tag (mem_captionTags htag))

theorem inGroup_strokes :
    inGroup strokesTag (pictureTags canvas t o) = t.strokes.map strokeTag := by
  unfold pictureTags
  rw [List.append_assoc]
  refine inGroup_append (not_opens_frame (by decide))
    (List.forall_mem_map.mpr fun stroke _ => isMark_strokeTag stroke) ?_
  -- Behind the strokes the document is closed, or the travel is opened.
  cases o.showTravel with
  | false =>
      intro tag htag
      obtain rfl := Option.some.inj htag
      decide
  | true =>
      obtain ⟨first, rest, hgroup, hfirst⟩ :=
        exists_groupTags_eq_cons travelTag (t.travel.map pathTag)
      intro tag htag
      rw [if_pos rfl, hgroup] at htag
      obtain rfl := Option.some.inj htag
      rcases hfirst with rfl | rfl <;> decide

/-- The strokes do not open the travel. -/
theorem not_opens_strokes :
    ∀ tag ∈ groupTags strokesTag (t.strokes.map strokeTag), ¬ Opens travelTag tag := by
  intro tag htag
  rcases mem_groupTags htag with rfl | rfl | rfl | hmark
  · decide
  · decide
  · decide
  · obtain ⟨stroke, -, rfl⟩ := List.mem_map.mp hmark
    exact not_opens_of_isMark (by decide) (isMark_strokeTag stroke)

theorem inGroup_travel (h : o.showTravel = true) :
    inGroup travelTag (pictureTags canvas t o) = t.travel.map pathTag := by
  unfold pictureTags
  rw [if_pos h]
  refine inGroup_append
    (List.forall_mem_append.mpr ⟨not_opens_frame (by decide), not_opens_strokes⟩)
    (List.forall_mem_map.mpr fun leg _ => isMark_pathTag leg) ?_
  intro tag htag
  obtain rfl := Option.some.inj htag
  decide

/-- Travel has been shown if its group is there. -/
theorem exists_opens_travelTag_iff :
    (∃ tag ∈ pictureTags canvas t o, Opens travelTag tag) ↔ o.showTravel = true := by
  unfold pictureTags
  constructor
  · rintro ⟨tag, htag, hopens⟩
    by_contra hshow
    rw [if_neg hshow, List.append_nil, List.mem_append, List.mem_append, List.mem_singleton] at htag
    rcases htag with (htag | htag) | rfl
    · exact not_opens_frame (by decide) tag htag hopens
    · exact not_opens_strokes tag htag hopens
    · exact absurd hopens (by decide)
  · intro hshow
    obtain ⟨first, rest, hgroup, hfirst⟩ :=
      exists_groupTags_eq_cons travelTag (t.travel.map pathTag)
    refine ⟨first, ?_, ?_⟩
    · rw [if_pos hshow, hgroup]
      simp
    · rcases hfirst with rfl | rfl
      · exact opens_self _
      · exact opens_slash _

/-- The legs that are shown can be read off their marks. -/
structure AllLegible (t : Trace) (o : Options) : Prop where
  strokes : ∀ stroke ∈ t.strokes, Legible stroke
  travel : o.showTravel = true → ∀ leg ∈ t.travel, Legible leg ∧ 2 ≤ leg.length

/-- Pictures with the same tags are for the same canvas and show travel both or neither. -/
theorem canvas_of_pictureTags_eq (heq : pictureTags canvas t o = pictureTags canvas' t' o') :
    canvas = canvas' ∧ o.showTravel = o'.showTravel := by
  have htail : canvasTag canvas :: _ = canvasTag canvas' :: _ := (List.cons.inj heq).2
  refine ⟨canvasTag_inj (List.cons.inj htail).1, Bool.eq_iff_iff.mpr ?_⟩
  have hleft : (∃ tag ∈ pictureTags canvas t o, Opens travelTag tag) ↔ o.showTravel = true :=
    exists_opens_travelTag_iff
  rw [← hleft, heq, exists_opens_travelTag_iff]

/-- **The tags of a picture determine the drawing** that can be read off them. -/
theorem pictureTags_inj (h : AllLegible t o) (h' : AllLegible t' o')
    (heq : pictureTags canvas t o = pictureTags canvas' t' o') :
    t.strokes = t'.strokes ∧ (o.showTravel = true → t.travel = t'.travel) := by
  obtain ⟨-, hshow⟩ := canvas_of_pictureTags_eq heq
  refine ⟨?_, fun htravel => ?_⟩
  · have hstrokes := congrArg (inGroup strokesTag) heq
    rw [inGroup_strokes, inGroup_strokes] at hstrokes
    exact map_inj_of_forall (fun _ _ => strokeTag_inj) h.strokes h'.strokes hstrokes
  · have htravel' := hshow ▸ htravel
    have htags := congrArg (inGroup travelTag) heq
    rw [inGroup_travel htravel, inGroup_travel htravel'] at htags
    exact map_inj_of_forall (fun _ _ hleg hleg' => pathTag_inj hleg.1 hleg'.1 hleg.2 hleg'.2)
      (h.travel htravel) (h'.travel htravel') htags

end Picture

end PenPlotter.Svg

namespace PenPlotter

/-- The leg stays where halves are numbers of single precision. -/
def InPrecision (leg : List Point) : Prop := ∀ q ∈ leg, q.1 < 8388608 ∧ q.2 < 8388608

instance (leg : List Point) : Decidable (InPrecision leg) := List.decidableBAll _ _

/-- The legs of the trace that a picture shows. -/
def Trace.shown (t : Trace) (o : Svg.Options) : List (List Point) :=
  t.strokes ++ if o.showTravel then t.travel else []

/-- All paths that are shown stay where halves are numbers of single precision. -/
def Trace.InPrecision (t : Trace) (o : Svg.Options) : Prop :=
  ∀ leg ∈ t.shown o, 2 ≤ leg.length → PenPlotter.InPrecision leg

section Replay

variable {canvas : Dimensions} {cs : List Command} {t : Trace}

/-- What a replay on a canvas records has coordinates that a canvas can have. -/
theorem coordinates_of_replayWithin (h : replayWithin cs canvas = .ok t) {leg : List Point}
    (hleg : leg ∈ t.strokes ++ t.travel) : ∀ q ∈ leg, Svg.Nonneg q ∧ Svg.Bounded q := by
  intro q hq
  rcases holds_or_eq_origin h hleg hq with ⟨hx, hwidth, hy, hheight⟩ | rfl
  · have hword (w : UInt32) : (w.toNat : Int) < 4294967296 := Int.ofNat_lt.mpr w.toNat_lt
    exact ⟨⟨hx, hy⟩, Int.lt_trans hwidth (hword _), Int.lt_trans hheight (hword _)⟩
  · exact ⟨⟨Int.le_refl 0, Int.le_refl 0⟩, by decide, by decide⟩

theorem faithful_of_replayWithin (h : replayWithin cs canvas = .ok t) : Svg.Faithful t := by
  refine ⟨fun stroke hstroke => ⟨strokes_ne_nil h hstroke, fun q hq => ?_⟩, fun leg hleg => ?_⟩
  · exact (coordinates_of_replayWithin h (List.mem_append_left _ hstroke) q hq).1
  · have hlong := two_le_length_travel h hleg
    refine ⟨⟨?_, fun q hq => ?_⟩, hlong⟩
    · exact List.ne_nil_of_length_pos (Nat.lt_of_lt_of_le Nat.two_pos hlong)
    · exact (coordinates_of_replayWithin h (List.mem_append_right _ hleg) q hq).1

theorem mem_of_mem_shown {o : Svg.Options} {leg : List Point} (hleg : leg ∈ t.shown o) :
    leg ∈ t.strokes ++ t.travel := by
  rcases List.mem_append.mp hleg with hleg | hleg
  · exact List.mem_append_left _ hleg
  · exact List.mem_append_right _ (List.mem_ite_nil_right.mp hleg).2

/-- The points of a leg are exact if and only if it stays in precision. -/
theorem exact_iff_inPrecision (h : replayWithin cs canvas = .ok t) {leg : List Point}
    (hleg : leg ∈ t.strokes ++ t.travel) : (∀ q ∈ leg, Svg.Exact q) ↔ InPrecision leg := by
  refine forall₂_congr fun q hq => ?_
  obtain ⟨⟨hx, hy⟩, -⟩ := coordinates_of_replayWithin h hleg q hq
  exact ⟨fun hexact => ⟨hexact.1.2, hexact.2.2⟩, fun hsmall => ⟨⟨hx, hsmall.1⟩, hy, hsmall.2⟩⟩

/-- A path is exact if and only if it stays in precision. -/
theorem pathTag_eq_iff_inPrecision (h : replayWithin cs canvas = .ok t) {leg : List Point}
    (hleg : leg ∈ t.strokes ++ t.travel) :
    Svg.pathTag leg = Svg.exactPathTag leg ↔ InPrecision leg := by
  obtain ⟨hstrokes, htravel⟩ := faithful_of_replayWithin h
  have hne : leg ≠ [] := (List.mem_append.mp hleg).elim
    (fun hstroke => (hstrokes leg hstroke).ne_nil) (fun hmoved => (htravel leg hmoved).1.ne_nil)
  have hcoordinates := coordinates_of_replayWithin h hleg
  rw [← exact_iff_inPrecision h hleg]
  exact Svg.pathTag_eq_iff hne (fun q hq => (hcoordinates q hq).1) fun q hq => (hcoordinates q hq).2

theorem allLegible_of_replayWithin (h : replayWithin cs canvas = .ok t) {o : Svg.Options}
    (hprecise : t.InPrecision o) : Svg.AllLegible t o := by
  have hexact {leg : List Point} (hleg : leg ∈ t.shown o) (hlong : 2 ≤ leg.length) :=
    (exact_iff_inPrecision h (mem_of_mem_shown hleg)).mpr (hprecise leg hleg hlong)
  obtain ⟨hstrokes, htravel⟩ := faithful_of_replayWithin h
  refine ⟨fun stroke hstroke => ⟨hstrokes stroke hstroke, ?_⟩, fun hshow leg hleg => ?_⟩
  · exact hexact (List.mem_append_left _ hstroke)
  · obtain ⟨hdrawable, hlong⟩ := htravel leg hleg
    refine ⟨⟨hdrawable, hexact (List.mem_append_right _ ?_)⟩, hlong⟩
    rw [if_pos hshow]
    exact hleg

end Replay

namespace Svg

/-- The tags of a text. -/
def tagsOf (text : String) : List String := (tags text.toList).map String.ofList

/-- What the text of a picture says. -/
structure Tells (p : Program) (o : Options) (t : Trace) (text : String) : Prop where
  /-- The tags are those that the trace calls for, whatever the title and the description are. -/
  tags : tagsOf text = pictureTags p.dimensions t o
  /-- There are no paths and rectangles but the marks of the strokes, and of the travel if it is
  shown. -/
  marks : (tagsOf text).filter isMark =
    t.strokes.map strokeTag ++ if o.showTravel then t.travel.map pathTag else []
  /-- A path leads through the exact middles of pixels if and only if all of these are numbers of
  single precision. -/
  exact : ∀ leg ∈ t.shown o, (pathTag leg = exactPathTag leg ↔ InPrecision leg)
  /-- Only programs for the same canvas have the same picture, and only with the same drawing if
  their paths are exact. -/
  determines : ∀ (q : Program) (o' : Options) (t' : Trace),
    replayWithin q.commands q.dimensions = .ok t' → q.svg o' = .ok text →
      p.dimensions = q.dimensions ∧ o.showTravel = o'.showTravel ∧
        (t.InPrecision o → t'.InPrecision o' →
          t.strokes = t'.strokes ∧ (o.showTravel = true → t.travel = t'.travel))

theorem tagsOf_svg {p : Program} {o : Options} {t : Trace} {text : String}
    (h : replayWithin p.commands p.dimensions = .ok t) (htext : p.svg o = .ok text) :
    tagsOf text = pictureTags p.dimensions t o := by
  rw [svg_of_replayWithin h] at htext
  obtain rfl := Except.ok.inj htext
  rw [tagsOf, tags_document (faithful_of_replayWithin h), List.map_map]
  exact List.map_id'' (fun _ => String.ofList_toList) _

end Svg

/-- **What a picture tells.**  A program whose replay on its own canvas succeeds has a picture.  The
tags of the picture are exactly those that the trace calls for: one mark for each stroke in drawing
order, a path through the middles of its pixels or the square of its only pixel, and if travel is
shown one path for each leg of travel.  Nothing else is a path or a rectangle, whatever the title
and the description say.  A path is exact if and only if halves are numbers of single precision all
along it.  Programs that differ in their canvas have different pictures, and so have those with
exact paths that differ in their strokes or in the travel that they show. -/
theorem svg_tells (p : Program) (o : Svg.Options) (t : Trace)
    (h : replayWithin p.commands p.dimensions = .ok t) :
    ∃ text, p.svg o = .ok text ∧ Svg.Tells p o t text := by
  have htags := Svg.tagsOf_svg h (svg_of_replayWithin h o)
  refine ⟨_, svg_of_replayWithin h o, htags, ?_, ?_, ?_⟩
  · rw [htags, Svg.filter_isMark_pictureTags]
  · exact fun leg hleg => pathTag_eq_iff_inPrecision h (mem_of_mem_shown hleg)
  · intro q o' t' h' htext
    have heq := htags.symm.trans (Svg.tagsOf_svg h' htext)
    obtain ⟨hcanvas, hshow⟩ := Svg.canvas_of_pictureTags_eq heq
    refine ⟨hcanvas, hshow, fun hprecise hprecise' => ?_⟩
    exact Svg.pictureTags_inj (allLegible_of_replayWithin h hprecise)
      (allLegible_of_replayWithin h' hprecise') heq

/-- A title that looks like a path is none. -/
theorem svg_tells_corner :
    replayWithin Program.corner.commands Program.corner.dimensions = .ok .corner ∧
      ∃ text, Program.corner.svg ⟨some "<path d=\"M0.5,0.5\"/>", none, true⟩ = .ok text ∧
        (Svg.tagsOf text).filter Svg.isMark =
          [Svg.exactPathTag [(1, 0), (2, 0), (2, 1)], Svg.exactPathTag [(0, 0), (1, 0)]] := by
  have hok : replayWithin Program.corner.commands Program.corner.dimensions = .ok .corner := by
    decide
  obtain ⟨text, htext, htells⟩ :=
    svg_tells _ ⟨some "<path d=\"M0.5,0.5\"/>", none, true⟩ _ hok
  have hstroke := (htells.exact [(1, 0), (2, 0), (2, 1)] (by decide)).mpr (by decide)
  have htravel := (htells.exact [(0, 0), (1, 0)] (by decide)).mpr (by decide)
  exact ⟨hok, text, htext, by rw [← hstroke, ← htravel]; exact htells.marks⟩

/-! ### Where halves are rounded -/

/-- A stroke to the right where halves are not numbers of single precision. -/
def Program.far : Program :=
  ⟨List.replicate 128 (.move 65536) ++ [.move 1, .penDown, .move 1], ⟨8388611, 1⟩⟩

/-- The same stroke to the left. -/
def Program.farBack : Program :=
  ⟨List.replicate 128 (.move 65536) ++ [.move 2, .rotate 180, .penDown, .move 1], ⟨8388611, 1⟩⟩

theorem Sketch.finished_along (s : Sketch) (heading : Heading) (ps : List Point) :
    (s.along heading ps).finished = s.finished := rfl

/-- Long moves lead straight ahead. -/
theorem run_replicate (canvas : Dimensions) (n : Nat) (hwidth : 65536 * n < canvas.width.toNat)
    (hheight : 0 < canvas.height.toNat) :
    ∃ s, Sketch.fresh.run (some canvas) 0 (List.replicate n (.move 65536)) = .ok s ∧
      s.turtle = ⟨(65536 * n, 0), .right, .up⟩ ∧ s.finished = [] := by
  induction n with
  | zero => exact ⟨Sketch.fresh, rfl, rfl, rfl⟩
  | succ n ih =>
      obtain ⟨s, hs, hturtle, hfinished⟩ := ih (by omega)
      have hunits : (65536 : UInt32).toNat = 65536 := rfl
      have hsteps : ∀ q ∈ s.turtle.steps (.move 65536), canvas.Holds q := by
        intro q hq
        rw [hturtle] at hq
        obtain ⟨k, hk, rfl⟩ := List.mem_map.mp hq
        rw [List.mem_range, hunits] at hk
        simp only [Dimensions.Holds, Turtle.pointAhead, Heading.unitStep]
        omega
      have hobeys := Sketch.Obeys.move (UInt32.le_refl maxUnits) fun q hq =>
        Sketch.allows_some.mpr (hsteps q hq)
      refine ⟨_, ?_, hobeys.turtle.trans ?_, (Sketch.finished_along ..).trans hfinished⟩
      · rw [List.replicate_succ']
        exact Sketch.run_concat hs (Sketch.obey_eq_ok_iff.mpr hobeys)
      · rw [hturtle]
        have hmax : maxUnits.toNat = 65536 := rfl
        simp only [Turtle.obey, Turtle.pointAhead, Heading.unitStep, Turtle.mk.injEq,
          Prod.mk.injEq, and_true]
        omega

/-- Halves of this size are rounded to the same whole number. -/
theorem Svg.pointText_far : Svg.pointText (8388609, 0) = Svg.pointText (8388610, 0) := by
  have hcentre : Svg.centre 8388609 = Svg.centre 8388610 := by decide
  rw [Svg.pointText, Svg.pointText, hcentre]

/-- Where the two strokes lead. -/
theorem run_far {s : Sketch} (hturtle : s.turtle = ⟨(8388608, 0), .right, .up⟩)
    (hfinished : s.finished = []) :
    ∃ u v, s.run (some ⟨8388611, 1⟩) 128 [.move 1, .penDown, .move 1] = .ok u ∧
      s.run (some ⟨8388611, 1⟩) 128 [.move 2, .rotate 180, .penDown, .move 1] = .ok v ∧
      u.trace.strokes = [[(8388609, 0), (8388610, 0)]] ∧
      v.trace.strokes = [[(8388610, 0), (8388609, 0)]] := by
  obtain ⟨heading, ⟨pen, tip, trail⟩, finished⟩ := s
  cases hturtle
  cases hfinished
  exact ⟨_, _, rfl, rfl, rfl, rfl⟩

/-- From `2 ^ 23` on, two different drawings can have one picture. -/
theorem svg_far : ∃ t t', replayWithin Program.far.commands Program.far.dimensions = .ok t ∧
    replayWithin Program.farBack.commands Program.farBack.dimensions = .ok t' ∧
    t.strokes = [[(8388609, 0), (8388610, 0)]] ∧ t'.strokes = [[(8388610, 0), (8388609, 0)]] ∧
    ∃ text, Program.far.svg ⟨none, none, false⟩ = .ok text ∧
      Program.farBack.svg ⟨none, none, false⟩ = .ok text := by
  obtain ⟨s, hs, hturtle, hfinished⟩ :=
    run_replicate ⟨8388611, 1⟩ 128 (by simp) (by simp)
  obtain ⟨u, v, hu, hv, hright, hleft⟩ := run_far hturtle hfinished
  have hsplit (cs : List Command) : Sketch.fresh.run (some ⟨8388611, 1⟩) 0
      (List.replicate 128 (.move 65536) ++ cs) = s.run (some ⟨8388611, 1⟩) 128 cs := by
    rw [Sketch.run_append hs, List.length_replicate]
  have hfar : replayWithin Program.far.commands Program.far.dimensions = .ok u.trace :=
    replayIn_eq_ok_iff.mpr ⟨u, (hsplit _).trans hu, rfl⟩
  have hback : replayWithin Program.farBack.commands Program.farBack.dimensions = .ok v.trace :=
    replayIn_eq_ok_iff.mpr ⟨v, (hsplit _).trans hv, rfl⟩
  have hpicture : Svg.document Program.far.dimensions u.trace ⟨none, none, false⟩ =
      Svg.document Program.farBack.dimensions v.trace ⟨none, none, false⟩ := by
    have hpath : Svg.strokeMark [(8388609, 0), (8388610, 0)] =
        Svg.strokeMark [(8388610, 0), (8388609, 0)] := by
      simp only [Svg.strokeMark, Svg.path, Svg.pointText_far, List.map_cons, List.map_nil]
    have hgroup : Svg.strokeGroup u.trace.strokes = Svg.strokeGroup v.trace.strokes := by
      simp only [hright, hleft, Svg.strokeGroup, List.filterMap_cons, hpath]
    simp only [Svg.document, hgroup, Bool.false_eq_true, if_false]
    rfl
  refine ⟨u.trace, v.trace, hfar, hback, hright, hleft, _, svg_of_replayWithin hfar _, ?_⟩
  rw [svg_of_replayWithin hback, hpicture]

end PenPlotter
