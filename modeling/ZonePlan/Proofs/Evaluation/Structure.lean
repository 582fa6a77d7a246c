/-
What the values of variables cannot change: the structure of a plan (`plan_alike`).

Whatever a variable holds, and whether an undefined one is forgiven or not, a document is evaluated to plans that are
alike if it is evaluated to plans at all. They have as many declarations, domains and records as each other, in the same
order, and two records at one place differ in their label, their target and the values of their metadata at most. Of the
providers and the metadata of a domain no such thing can be said: they are kept by names that may refer to variables,
and two entries may come to have one name.

The plans are compared through the document: each comes from its nodes place by place, and so they go together.
-/
import ZonePlan.Proofs.Evaluation.Success

namespace ZonePlan

/-! ## Keys -/

namespace SortedMap

variable {α β : Type}

theorem keys_insertEntry {key : String} {x : α} {y : β} {es : List (String × α)} {fs : List (String × β)}
    (h : es.map Prod.fst = fs.map Prod.fst) :
    (insertEntry key x es).map Prod.fst = (insertEntry key y fs).map Prod.fst := by
  induction es generalizing fs with
  | nil =>
    cases fs with
    | nil => rfl
    | cons f fs => cases h
  | cons e es ih =>
    cases fs with
    | nil => cases h
    | cons f fs =>
      obtain ⟨hkey, hrest⟩ := List.cons.inj h
      simp only [insertEntry, hkey]
      split_ifs
      · simp [hkey, hrest]
      · simp [hrest]
      · simp [hkey, ih hrest]

/-- the keys of a map are those of its pairs, whatever the values -/
theorem keys_ofList {ps : List (String × α)} {qs : List (String × β)} (h : ps.map Prod.fst = qs.map Prod.fst) :
    (ofList ps).keys = (ofList qs).keys := by
  have hstep : ∀ (m : SortedMap α) (n : SortedMap β), m.keys = n.keys →
      (ps.foldl (fun m pair => m.insert pair.1 pair.2) m).keys =
        (qs.foldl (fun m pair => m.insert pair.1 pair.2) n).keys := by
    induction ps generalizing qs with
    | nil =>
      cases qs with
      | nil => exact fun m n hkeys => hkeys
      | cons q qs => cases h
    | cons p ps ih =>
      cases qs with
      | nil => cases h
      | cons q qs =>
        obtain ⟨hkey, hrest⟩ := List.cons.inj h
        intro m n hkeys
        refine ih hrest _ _ ?_
        change (m.insert p.1 p.2).keys = (n.insert q.1 q.2).keys
        rw [hkey]
        exact keys_insertEntry hkeys
  exact hstep empty empty rfl

end SortedMap

/-! ## Plans with other texts -/

/-- two records of one kind, with one time to live and the same keys of metadata, that differ in texts only -/
structure Record.Alike (r s : Record) : Prop where
  rest : s = { r with label := s.label, target := s.target, metadata := s.metadata }
  keys : s.metadata.keys = r.metadata.keys

/-- two plans with as many declarations, and with records that differ in texts only -/
structure Plan.Alike (p q : Plan) : Prop where
  registrars : p.registrars.length = q.registrars.length
  providers : p.providers.length = q.providers.length
  domains : List.Forall₂ (fun d e => List.Forall₂ Record.Alike d.records e.records) p.domains q.domains

/-! ## Two settings -/

namespace Setting

open Kdl (Node)

variable {A B : Setting}

theorem record_alike {zone zone' : String} {node : Node} {r s : Record}
    (hr : (A.record zone node).result = .ok r) (hs : (B.record zone' node).result = .ok s) : r.Alike s := by
  obtain ⟨label, target, metadata, hkeys, rfl⟩ := record_eq_ok hr
  obtain ⟨label', target', metadata', hkeys', rfl⟩ := record_eq_ok hs
  exact ⟨rfl, SortedMap.keys_ofList (hkeys'.trans hkeys.symm)⟩

theorem records_alike {node : Node} {d e : Domain} (hd : (A.domain node).result = .ok d)
    (he : (B.domain node).result = .ok e) : List.Forall₂ Record.Alike d.records e.records :=
  forall₂_join (domain_eq_ok hd) (domain_eq_ok he) fun _ _ _ hr hs => record_alike hr hs

/-- **The values of variables change texts only**: whatever they are and in either mode, the plans that a document is
evaluated to have the same structure. -/
theorem plan_alike {document : Kdl.Document} {p q : Plan} (hp : (A.plan document).result = .ok p)
    (hq : (B.plan document).result = .ok q) : p.Alike q := by
  obtain ⟨hregistrars, hproviders, hdomains⟩ := plan_eq_ok hp
  obtain ⟨hregistrars', hproviders', hdomains'⟩ := plan_eq_ok hq
  exact {
    registrars := hregistrars.length_eq.symm.trans hregistrars'.length_eq
    providers := hproviders.length_eq.symm.trans hproviders'.length_eq
    domains := forall₂_join hdomains hdomains' fun _ _ _ hd he => records_alike hd he }

/-- a value that looks like the rest of a document, and a reference that stays -/
theorem plan_alike_quotes :
    let value := "\" {}\n${y} A ttl=1"
    let A : Setting := ⟨{ custom := .ofList [("x", value)] }, false⟩
    let B : Setting := ⟨{}, true⟩
    let document : Kdl.Document := [
      ⟨"domain", [⟨none, .string "${x}"⟩], [
        ⟨"a", [⟨none, .string "w"⟩, ⟨none, .string "${x}"⟩, ⟨some "k", .string "${x}"⟩], []⟩]⟩]
    let plan (text : String) : Plan := {
      domains := [{
        name := text
        records := [{ kind := "A", label := "w", target := text, metadata := .ofList [("k", text)] }] }] }
    (A.plan document).result = .ok (plan value) ∧ (B.plan document).result = .ok (plan "${x}") ∧
      (plan value).Alike (plan "${x}") := by
  intro value A B document plan
  have hp : (A.plan document).result = .ok (plan value) := by decide +kernel
  have hq : (B.plan document).result = .ok (plan "${x}") := by decide +kernel
  exact ⟨hp, hq, plan_alike hp hq⟩

end Setting

end ZonePlan
