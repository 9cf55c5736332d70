import Mathlib
import PenPlotter.Proofs.Json.Codec
import PenPlotter.Proofs.NormalForm
import PenPlotter.TurtleDocument

/-!
# Turtle documents read back

A document is read back from either of its texts with its commands in normal form
(`TurtleDocument.restores`), and the document of any text has its commands in normal form
(`TurtleDocument.normal_of_parse`): so a document that has been read once stays as it is.

**Main statement** (`turtleText_round_trip`): this for programs, with what it means for a replay.
-/

namespace PenPlotter

namespace TurtleDocument

/-- The document with its commands in normal form. -/
def normal (d : TurtleDocument) : TurtleDocument := { d with data := d.data.map Command.normal }

theorem toProgram_normal (d : TurtleDocument) : d.normal.toProgram = d.toProgram.normal := rfl

theorem restores_command (c : Command) : Json.command.Restores c c.normal where
  natural := trivial
  decode := by
    simp only [Json.command, Json.Value.node, Json.decodeCommand, bind, Except.bind,
      Command.ofToken_token]

/-- A document is read back with its commands in normal form. -/
theorem restores (d : TurtleDocument) : codec.Restores d d.normal where
  natural :=
    ⟨⟨Json.natural_word _, Json.natural_word _, trivial⟩,
      (Json.Codec.Restores.list restores_command d.data).natural, trivial⟩
  decode := by
    have hsize := Json.decodeWordPair_words d.size.1 d.size.2
    have hdata := (Json.Codec.Restores.list restores_command d.data).decode
    have hnode : (codec.encode d).node = .object
        [(.ok "size", (Json.Value.list [.word d.size.1, .word d.size.2]).node),
          (.ok "data", (Json.command.list.encode d.data).node)] none := rfl
    rw [hnode]
    simp only [codec, Json.decodeStruct]
    rw [Json.putMembers_put (by rfl) (by rfl) (Json.Field.put_required hsize _),
      Json.putMembers_put (by rfl) (by rfl) (Json.Field.put_required hdata _)]
    rfl

/-- What reads as a command is in normal form. -/
theorem normal_of_decodeCommand {v : Json.Node} {c : Command}
    (h : Json.command.decode v = .ok c) : c.normal = c := by
  simp only [Json.command, Json.decodeCommand] at h
  split at h
  all_goals
    obtain ⟨token, _, h⟩ := Json.bind_eq_ok.mp h
    split at h
    · rename_i hc
      cases h
      exact Command.normal_of_ofToken hc
    · cases h

/-- The commands of a document that has been read are in normal form. -/
theorem normal_of_parse {text : String} {d : TurtleDocument} (h : parse text = .ok d) :
    d.normal = d := by
  obtain ⟨a, ha, h⟩ := Json.bind_eq_ok.mp h
  have hdata : ∀ c ∈ a.data, c.normal = c := by
    refine Json.decodeStruct_keeps (P := fun d => ∀ c ∈ d.data, c.normal = c) ?_ (by decide) ha
    simp only [List.forall_mem_cons]
    refine ⟨Json.Field.keeps_required ?size, Json.Field.keeps_required ?data, by simp⟩
    case size => exact fun _ _ _ _ hd => hd
    case data =>
      exact fun _ _ _ hdata _ => Json.decodeList_forall (fun _ _ => normal_of_decodeCommand) hdata
  split at h
  · cases h
  · cases h
    rw [normal, List.map_congr_left hdata, List.map_id']

theorem parse_turtleText (d : TurtleDocument) : parse d.toProgram.turtleText = .ok d.normal :=
  (restores d).read_write

theorem parse_turtleTextIndented (d : TurtleDocument) :
    parse d.toProgram.turtleTextIndented = .ok d.normal :=
  (restores d).read_prettyText

end TurtleDocument

open TurtleDocument in
/-- **Round trip.**  Both texts of a program are read as the document of its normal form, which is
the program itself if and only if its turns are in normal form, as those of a compiled program are.
A replay of what was read differs in the degrees of a turn that it reports at most.  Any text that
is read at all is read as a document that both its texts are read as again. -/
theorem turtleText_round_trip :
    (∀ p : Program, ∃ d : TurtleDocument,
      parse p.turtleText = .ok d ∧ parse p.turtleTextIndented = .ok d ∧
        d.toProgram = p.normal ∧
        (d.toProgram = p ↔ ∀ t, .rotate t ∈ p.commands → -180 < t.toInt ∧ t.toInt ≤ 180) ∧
        ∀ bounds, replayIn bounds d.toProgram.commands =
          (replayIn bounds p.commands).mapError ReplayError.normal) ∧
    (∀ (islands : List Island) (dimensions : Dimensions) (t : Int16),
      .rotate t ∈ (compileIslands islands dimensions).commands →
        -180 < t.toInt ∧ t.toInt ≤ 180) ∧
    (∀ (text : String) (d : TurtleDocument), parse text = .ok d →
      parse d.toProgram.turtleText = .ok d ∧ parse d.toProgram.turtleTextIndented = .ok d) := by
  refine ⟨fun p => ⟨(ofProgram p).normal, ?_, ?_, toProgram_normal _, ?_, ?_⟩, ?_, ?_⟩
  · exact parse_turtleText (ofProgram p)
  · exact parse_turtleTextIndented (ofProgram p)
  · exact Program.normal_eq_self_iff
  · exact fun bounds => replayIn_normal bounds p.commands
  · intro islands dimensions t ht
    exact Command.normal_eq_self_iff.mp (normal_compileIslands islands dimensions _ ht) t rfl
  · intro text d h
    have htext := parse_turtleText d
    have hindented := parse_turtleTextIndented d
    rw [normal_of_parse h] at htext hindented
    exact ⟨htext, hindented⟩

set_option maxRecDepth 2000 in
/-- A list of the fields is read as a document, with tokens that are not written so. -/
theorem turtleText_round_trip_list :
    TurtleDocument.parse "[[2, 1], [\"m01\", \"l450\"]]" = .ok ⟨(2, 1), [.move 1, .rotate (-90)]⟩ ∧
      TurtleDocument.parse (TurtleDocument.toProgram ⟨(2, 1), [.move 1, .rotate (-90)]⟩).turtleText
        = .ok ⟨(2, 1), [.move 1, .rotate (-90)]⟩ := by
  have h : TurtleDocument.parse "[[2, 1], [\"m01\", \"l450\"]]" =
      .ok ⟨(2, 1), [.move 1, .rotate (-90)]⟩ := by cbv
  exact ⟨h, (turtleText_round_trip.2.2 _ _ h).1⟩

end PenPlotter
