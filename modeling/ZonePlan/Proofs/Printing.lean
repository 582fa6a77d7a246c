/-
The two texts of a plan, and the line that a print puts on the output (`styles_differ_in_layout`).

The pretty text of a plan is its compact text with layout. The compact text has no layout, and as no string literal has a
control character in it either, it has no line break at all. A print that succeeds puts nothing else on the output than
the text of a plan and the line break behind it, since nothing that a job does before its last stage is heard there
(`Mute`).
-/
import ZonePlan.Proofs.Compositional
import ZonePlan.Proofs.Json.Layout
import ZonePlan.Proofs.Session

namespace ZonePlan

open Json Zone

/-! ## Texts of plans -/

namespace Exchange

theorem laidOut_render (style : Style) (p : Plan) : LaidOut (render style p).toList (render .compact p).toList := by
  simpa only [render, Json.render, String.toList_ofList] using laidOut_chars style 0 0 (plan.json p)

theorem isLayout_compact (p : Plan) : ∀ m ∈ Spot.outside.marked (render .compact p).toList, isLayout m = false :=
  withoutLayout_eq_self_iff.1 (laidOut_render .compact p).stripped

/-- a compact text is one line -/
theorem lineBreak_not_mem_compact (p : Plan) : '\n' ∉ (render .compact p).toList := by
  intro hmem
  rw [← Spot.map_snd_marked .outside (render .compact p).toList] at hmem
  obtain ⟨m, hm, hbreak⟩ := List.mem_map.1 hmem
  by_cases hspot : m.1 = .outside
  · have hlayout := isLayout_compact p m hm
    rw [isLayout, hspot, hbreak] at hlayout
    exact absurd hlayout (by decide)
  · have hvisible := (laidOut_render .compact p).literals m hm hspot
    rw [hbreak] at hvisible
    exact absurd hvisible (by decide)

end Exchange

/-! ## What is heard on the output -/

namespace Session

variable {α : Type} (w : Workspace) (notice : Notice) (environment : SortedMap String)

/-- whatever the files and the notice are, nothing is put on the output -/
def Mute (x : StateT Notice (StateM Workspace) α) : Prop :=
  ∀ (w : Workspace) (notice : Notice), ∃ us, (w.run notice x).2.said = w.said ++ us ∧ Utterance.outputs us = ""

namespace Mute

theorem compositional : Compositional virtual virtual fun x _ => Mute x where
  pure a := by
    intro w notice
    exact ⟨[], (List.append_nil _).symm, rfl⟩
  bind := by
    intro α β x y f g hx hf w notice
    obtain ⟨us, hsaid, hus⟩ := hx w notice
    obtain ⟨vs, hmore, hvs⟩ := hf (w.run notice x).1.1 (w.run notice x).2 (w.run notice x).1.2
    refine ⟨us ++ vs, ?_, ?_⟩
    · rw [Workspace.run_bind, hmore, hsaid, List.append_assoc]
    · rw [Utterance.outputs_append, hus, hvs, String.empty_append]
  event e := by
    intro w notice
    exact ⟨[.event e], rfl, rfl⟩
  read path := by
    intro w notice
    exact ⟨[], (List.append_nil _).symm, rfl⟩

theorem note (used : Bool) : Mute (note used) := by
  intro w notice
  exact ⟨[], (List.append_nil _).symm, rfl⟩

theorem load (source : Source) : Mute (source.load (stages virtual environment) virtual) :=
  compositional.load environment note source

end Mute

/-- the last stage puts a text and a line break on the output, if it shall go there -/
theorem outputs_serialize {job : Job} (hjob : job.destination = .output) (p : Plan) {us : List Utterance}
    (hus : Utterance.outputs us = "") :
    ∃ vs, ((w.tell us).run notice (job.serialize virtual p)).2.said = w.said ++ vs ∧
      Utterance.outputs vs = job.text p ++ "\n" := by
  rw [run_serialize_output _ _ hjob, Workspace.tell_tell]
  refine ⟨_, rfl, ?_⟩
  rw [Utterance.outputs_append, hus, String.empty_append]
  simp [Utterance.outputs]

/-- behind loading, a job that succeeds puts the text of one plan on the output, if it shall go there -/
theorem outputs_finish {job : Job} (hjob : job.destination = .output) (p : Plan)
    (hok : (w.run notice (job.finish (stages virtual environment) virtual p)).1.1 = .ok ()) :
    ∃ q us, (w.run notice (job.finish (stages virtual environment) virtual p)).2.said = w.said ++ us ∧
      Utterance.outputs us = job.text q ++ "\n" := by
  cases hraw : job.raw with
  | true =>
    have hskip : w.run notice (job.finish (stages virtual environment) virtual p) =
        (w.tell [.event .skippingValidation]).run notice (job.serialize virtual p) := by
      simp only [Job.finish, hraw, if_true, Workspace.run_bind, Workspace.run_say]
    rw [hskip]
    exact ⟨p, outputs_serialize w notice hjob p rfl⟩
  | false =>
    rw [run_finish _ _ _ hraw] at hok ⊢
    by_cases hharmless : Harmless (findings p)
    · rw [if_pos hharmless]
      exact ⟨normalize p, outputs_serialize w notice hjob (normalize p) (outputs_heard p)⟩
    · rw [if_neg hharmless] at hok
      cases hok

/-- a print that succeeds puts the text of one plan on the output, if it shall go there -/
theorem outputs_print {job : Job} (hjob : job.destination = .output)
    (hok : (w.run notice (perform virtual environment (.print job))).1.1 = .ok ()) :
    ∃ q us, (w.run notice (perform virtual environment (.print job))).2.said = w.said ++ us ∧
      Utterance.outputs us = job.text q ++ "\n" := by
  rcases hrun : w.run notice (run virtual environment job) with ⟨⟨result, later⟩, done⟩
  cases result with
  | error failure =>
    rw [run_print_error w notice environment hrun] at hok
    cases hok
  | ok =>
    rw [run_print_ok w notice environment hrun]
    obtain ⟨us, hsaid, hus⟩ := Mute.load environment job.source (w.tell [.event (.stageStarted .load)]) notice
    rcases hload : (w.tell [.event (.stageStarted .load)]).run notice
      (job.source.load (stages virtual environment) virtual) with ⟨⟨result, middle⟩, loaded⟩
    rw [hload] at hsaid
    cases result with
    | error fault =>
      rw [run_run_error w notice environment job hload] at hrun
      cases hrun
    | ok p =>
      rw [run_run_ok w notice environment job hload] at hrun
      obtain ⟨q, vs, hmore, hvs⟩ := outputs_finish loaded middle environment hjob p (by rw [hrun])
      rw [hrun, hsaid, Workspace.tell_said] at hmore
      refine ⟨q, [.event (.stageStarted .load)] ++ us ++ vs, ?_, ?_⟩
      · simpa only [List.append_assoc] using hmore
      · rw [Utterance.outputs_append, Utterance.outputs_append, hus, hvs]
        rfl

/-- **The two texts of a plan differ in their layout only**: the compact text is what is left of the pretty one without its
layout, it has no layout itself, and neither has a control character in a string literal. So a print of a compact text
that succeeds puts exactly one line on the output. -/
theorem styles_differ_in_layout (p : Plan) (job : Job) :
    let compact := (Exchange.render .compact p).toList
    let pretty := (Exchange.render .pretty p).toList
    withoutLayout pretty = compact ∧
    (∀ m ∈ Spot.outside.marked compact, m.1 = .outside → Text.isBlank m.2 = false) ∧
    (∀ text ∈ [compact, pretty], ∀ m ∈ Spot.outside.marked text, m.1 ≠ .outside → 0x20 ≤ m.2.toNat) ∧
    let done := w.run notice (perform virtual environment (.print job))
    job.destination = .output → job.pretty = false → exitCode done.1.1 = 0 →
      ∃ us line, done.2.said = w.said ++ us ∧ Utterance.outputs us = line ++ "\n" ∧ '\n' ∉ line.toList := by
  intro compact pretty
  have hcompact : LaidOut compact compact := Exchange.laidOut_render .compact p
  have hpretty : LaidOut pretty compact := Exchange.laidOut_render .pretty p
  refine ⟨hpretty.stripped, ?_, ?_, ?_⟩
  · intro m hm hspot
    have hlayout := Exchange.isLayout_compact p m hm
    simpa [isLayout, hspot] using hlayout
  · intro text htext
    rcases List.mem_pair.1 htext with rfl | rfl
    · exact hcompact.literals
    · exact hpretty.literals
  · intro done hjob hcompact hok
    obtain ⟨q, us, hsaid, hus⟩ := outputs_print w notice environment hjob ((exitCode_eq_zero_iff _).1 hok)
    have htext : job.text q = Exchange.render .compact q := by
      rw [Job.text, hcompact]
      rfl
    exact ⟨us, job.text q, hsaid, hus, htext ▸ Exchange.lineBreak_not_mem_compact q⟩

/-- a plan whose strings have quotes, blanks, line breaks and what looks like the end of a string in them -/
theorem styles_differ_in_layout_quotes :
    let p : Plan := {
      registrars := [⟨"a \"b\\", " \n\t\x01 "⟩]
      domains := [{
        name := "a"
        registrar := "a \"b\\"
        records := [{ kind := "TXT", label := "@", target := "\\\" : [ ,\n" }] }] }
    let w : Workspace := { files := ⟨[(["plan"], .text (Exchange.render .pretty p))]⟩ }
    let notice : Notice := true
    let source : Source := { path := "", exchange? := some "plan" }
    let done := w.run notice (perform virtual {} (.print { source }))
    withoutLayout (Exchange.render .pretty p).toList = (Exchange.render .compact p).toList ∧ exitCode done.1.1 = 0 ∧
      ∃ us line, done.2.said = us ∧ Utterance.outputs us = line ++ "\n" ∧ '\n' ∉ line.toList := by
  intro p w notice source
  have hsource : source.exchange? = some "plan" := rfl
  have hfile : w.files.read "plan" = .ok (Exchange.render .pretty p) := rfl
  have hharmless : Harmless (findings p) := by decide +kernel
  have hprinted := printed_from w notice {} hsource (by decide) hfile (Exchange.read_render .pretty p) hharmless false
  have hok := (exitCode_eq_zero_iff _).2 hprinted.1
  obtain ⟨hstripped, -, -, hline⟩ := styles_differ_in_layout w notice {} p { source }
  exact ⟨hstripped, hok, hline rfl rfl hok⟩

end Session

end ZonePlan
