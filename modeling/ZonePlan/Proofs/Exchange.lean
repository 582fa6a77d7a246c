/-
The exchange form loses nothing: whatever a plan holds, both of its texts are read as that plan again (`read_render`).
So a plan has one compact and one pretty text, and no text belongs to two plans.

For a run this means that a plan which was put into a file is loaded from it unchanged, by any stages and with any
other settings (`load_rendered`).
-/
import ZonePlan.Job
import ZonePlan.Proofs.Json.Structure

namespace ZonePlan.Exchange

open Json

/-! ## The shapes of a plan -/

theorem declaration_lawful (title : String) : (declaration title).Lawful where
  distinct := by simp [declaration, Codec.field]
  required x f hf := by
    simp only [declaration, List.take_succ_cons, List.take_zero, List.mem_cons, List.not_mem_nil, or_false] at hf
    rcases hf with rfl | rfl <;> rfl
  restores x := .field text_lawful (.field text_lawful .done)

theorem record_lawful : record.Lawful where
  distinct := by decide
  required x f hf := by
    simp only [record, List.take_succ_cons, List.take_zero, List.mem_cons, List.not_mem_nil, or_false] at hf
    rcases hf with rfl | rfl | rfl <;> rfl
  restores x :=
    .field text_lawful <| .field text_lawful <| .field text_lawful <| .field word32_lawful <|
    .fieldIfSet word16_lawful word16_solid rfl <| .fieldIfSet word16_lawful word16_solid rfl <|
    .fieldIfSet word16_lawful word16_solid rfl <| .fieldIfSet word16_lawful word16_solid rfl <|
    .fieldIfSet word8_lawful word8_solid rfl <| .fieldIfSet text_lawful text_solid rfl <|
    .fieldIfFull text_lawful rfl .done

theorem domain_lawful : domain.Lawful where
  distinct := by decide
  required x f hf := by
    simp only [domain, List.take_succ_cons, List.take_zero, List.mem_cons, List.not_mem_nil, or_false] at hf
    rcases hf with rfl; rfl
  restores x :=
    .field text_lawful <| .field text_lawful <|
    .field (map_lawful (orNull_lawful word32_lawful word32_solid)) <|
    .field (list_lawful record_lawful.codec_lawful) <| .fieldIfFull text_lawful rfl .done

theorem plan_lawful : plan.Lawful where
  distinct := by decide
  required x f hf := by simp [plan] at hf
  restores x :=
    .field (list_lawful (declaration_lawful _).codec_lawful) <|
    .field (list_lawful (declaration_lawful _).codec_lawful) <|
    .field (list_lawful domain_lawful.codec_lawful) .done

/-- **A plan is read back from its text** -/
theorem read_render (style : Style) (p : Plan) : read (render style p) = .ok p := by
  have hread := plan_lawful.codec_lawful.read_chars style 0 p [] [] Blank.nil Closed.nil
  simp only [List.nil_append, List.append_nil] at hread
  simp only [read, render, Json.render, String.toList_ofList, Reader.document]
  rw [show plan.read ((plan.json p).chars style 0) = .ok (p, []) from hread]
  rfl

/-- no text belongs to two plans, also not in different styles -/
theorem render_injective {style style' : Style} {p q : Plan} (h : render style p = render style' q) : p = q := by
  have hp := read_render style p
  rw [h, read_render style' q] at hp
  exact (Except.ok.inj hp).symm

/-! ## Loading -/

variable {σ : Type}

theorem load_of_read {w : Workspace} {source : Source} {path text : String} {p : Plan}
    (hsource : source.exchange? = some path) (hpath : path ≠ "") (hfile : w.files.read path = .ok text)
    (hread : read text = .ok p) (stages : Stages (StateT σ (StateM Workspace))) (s : σ) :
    w.run s (source.load stages (Desk.virtual.withState σ)) =
      ((.ok p, s), w.tell [.event (.loadingExchange path)]) := by
  have hfilter : source.exchange?.filter (· ≠ "") = some path := by simp [hsource, hpath]
  simp only [Source.load, hfilter, Source.loadExchange, Workspace.run_bind, Workspace.run_say, Workspace.run_read,
    Workspace.tell_files, hfile, hread, Workspace.run_pure]

/-- **A plan is loaded from its text as it was**: by any stages, with any other settings, and with a state that stays as
it is; all that is said is that the file is loaded -/
theorem load_rendered (stages : Stages (StateT σ (StateM Workspace))) (w : Workspace) (s : σ) (source : Source)
    (p : Plan) (style : Style) (path : String) (hsource : source.exchange? = some path) (hpath : path ≠ "")
    (hfile : w.files.read path = .ok (render style p)) :
    w.run s (source.load stages (Desk.virtual.withState σ)) =
      ((.ok p, s), w.tell [.event (.loadingExchange path)]) :=
  load_of_read hsource hpath hfile (read_render style p) stages s

/-- a plan of many fields, with characters that have escapes -/
theorem load_rendered_fields :
    let p : Plan := {
      registrars := [⟨"none", ""⟩]
      providers := [⟨"a \"quoted\" name", "BIND"⟩]
      domains := [{
        name := "exämple.com"
        registrar := "none"
        providers := .ofList [("bind", some 0), ("a \"quoted\" name", none)]
        records := [
          { kind := "SRV", label := "@", target := "\\\n\t\x00", ttl := 4294967295, priority? := some 0,
            port? := some 65535 },
          { kind := "CAA", label := "", target := "", flag? := some 255, tag? := some "",
            metadata := .ofList [("", "\x1f")] }]
        metadata := .ofList [("b", "2"), ("a", "1")] }] }
    let w : Workspace := { files := ⟨[(["plan.json"], .text (render .pretty p))]⟩ }
    let source : Source := { path := "", exchange? := some "plan.json", development := true, assignments := ["a=b"] }
    let stages : Stages (StateT Bool (StateM Workspace)) :=
      { evaluate := fun _ _ _ => return .error .noSource
        complete := fun domains => return (domains, none)
        validate := fun p => return (p, []) }
    w.run true (source.load stages (Desk.virtual.withState Bool)) =
      ((.ok p, true), w.tell [.event (.loadingExchange "plan.json")]) := by
  intro p w source stages
  exact load_rendered stages w true source p .pretty "plan.json" rfl (by decide) rfl

end ZonePlan.Exchange
