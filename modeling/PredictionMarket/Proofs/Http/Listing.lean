import Mathlib
import PredictionMarket.Proofs.Http.Answers
import PredictionMarket.Proofs.Http.Paths
import PredictionMarket.Proofs.Registry.Openings

/-!
# The list of markets and the single market

The list shows the markets that have a snapshot, and the route of a label shows the snapshot
of its market.  That the two agree takes three facts about a registry that is served.

* No label stands twice, so the market that a label finds is the one that the list goes
  through (`Registry.list_eq`).
* The market of a label carries that label (`served_filed`).
* A market that cannot be shown is refused for an overflow and for nothing else
  (`Market.Sound.snapshot_cases`).

`Collects` is the agreement.  It says of every registered label whether the list has it, and
what everybody is answered who looks for it.  Not every label can be looked for: one with
half of a surrogate pair is registered like others and listed, but no path spells it.
-/

namespace PredictionMarket

namespace Market

theorem market_of_snapshot {m : Market} {s : Snapshot} (h : m.snapshot = .ok s) :
    s.market = m := by
  obtain ⟨cost, -, h⟩ := bind_eq_ok_iff.mp h
  obtain ⟨prices, -, h⟩ := bind_eq_ok_iff.mp h
  obtain ⟨loss, -, h⟩ := bind_eq_ok_iff.mp h
  rw [← Except.ok.inj h]

/-- A sound market is shown or refused for an overflow. -/
theorem Sound.snapshot_cases {m : Market} (h : m.Sound) :
    (∃ s, m.snapshot = .ok s) ∨ m.snapshot = .error .mathOverflow := by
  rcases h.cost_ok_or_overflow with ⟨c, hc⟩ | hoverflow
  · exact .inl (h.snapshot_of_cost hc)
  · exact .inr (snapshot_of_cost_error hoverflow)

end Market

namespace Registry

/-- Every market is found under the label that it stands under. -/
theorem find?_of_mem_entries {r : Registry} (hr : r.labels.Nodup) {entry : Text × Market}
    (h : entry ∈ r.entries) : r.find? entry.1 = some entry.2 := by
  obtain ⟨label, m⟩ := entry
  obtain ⟨before, after, hsplit⟩ := List.append_of_mem h
  rw [find?, List.lookup_eq_some_iff]
  refine ⟨before, after, hsplit, ?_⟩
  intro other hother
  rw [labels, hsplit, List.map_append, List.map_cons] at hr
  obtain ⟨-, -, hdisjoint⟩ := List.nodup_append.mp hr
  have hne := hdisjoint other.1 (List.mem_map_of_mem hother) label List.mem_cons_self
  exact bne_iff_ne.mpr (Ne.symm hne)

/-- The snapshots that there are, in the order of the labels. -/
def snapshots (r : Registry) : List Market.Snapshot :=
  r.labels.filterMap fun label => (r.snapshot label).toOption

/-- Going through the markets is going through the labels. -/
theorem list_eq {r : Registry} (hr : r.labels.Nodup) : Http.list r = .listed r.snapshots := by
  rw [Http.list, snapshots, markets, labels, List.filterMap_map, List.filterMap_map]
  congr 1
  refine List.filterMap_congr fun entry hentry => ?_
  rw [Function.comp_apply, Function.comp_apply,
    snapshot_of_find? (find?_of_mem_entries hr hentry)]

theorem mem_snapshots_iff {r : Registry} {s : Market.Snapshot} :
    s ∈ r.snapshots ↔ ∃ label ∈ r.labels, r.snapshot label = .ok s := by
  rw [snapshots, List.mem_filterMap]
  refine exists_congr fun label => and_congr_right fun _ => ?_
  cases r.snapshot label with
  | ok shown => simp [Except.toOption]
  | error e => simp [Except.toOption]

/-- The snapshot of a label is that of a market with the label. -/
theorem Filed.label_of_snapshot {r : Registry} (h : r.Filed) {label : Text} {s : Market.Snapshot}
    (hs : r.snapshot label = .ok s) : s.market.label = label := by
  obtain ⟨m, hm, hs⟩ := bind_eq_ok_iff.mp hs
  rw [Market.market_of_snapshot hs]
  unfold get at hm
  split at hm
  · rename_i found hfind
    obtain rfl := Except.ok.inj hm
    exact h.label_eq hfind
  · exact absurd hm (by simp)

/-- The labels of the snapshots are those that have one. -/
theorem Filed.labels_snapshots {r : Registry} (h : r.Filed) :
    r.snapshots.map (fun s => s.market.label) =
      r.labels.filter fun label => (r.snapshot label).toOption.isSome := by
  rw [snapshots, List.map_filterMap, ← List.filterMap_eq_filter]
  refine List.filterMap_congr fun label _ => ?_
  cases hs : r.snapshot label with
  | error e => simp [Except.toOption, Option.guard, hs]
  | ok s => simp [Except.toOption, Option.guard, hs, h.label_of_snapshot hs]

/-- The snapshot of a label that is registered is the one with the label. -/
theorem Filed.snapshot_eq_ok_iff {r : Registry} (h : r.Filed) {label : Text}
    (hlabel : label ∈ r.labels) {s : Market.Snapshot} :
    r.snapshot label = .ok s ↔ s ∈ r.snapshots ∧ s.market.label = label := by
  constructor
  · intro hs
    exact ⟨mem_snapshots_iff.mpr ⟨label, hlabel, hs⟩, h.label_of_snapshot hs⟩
  · rintro ⟨hmem, hs⟩
    obtain ⟨found, -, hfound⟩ := mem_snapshots_iff.mp hmem
    rwa [← hs, h.label_of_snapshot hfound]

/-- What is registered is shown or refused for an overflow. -/
theorem Regular.snapshot_cases {r : Registry} (h : r.Regular) {label : Text}
    (hlabel : label ∈ r.labels) :
    (∃ s, r.snapshot label = .ok s) ∨ r.snapshot label = .error .mathOverflow := by
  obtain ⟨m, hfind⟩ := Option.isSome_iff_exists.mp (find?_isSome_iff.mpr hlabel)
  rw [snapshot_of_find? hfind]
  exact (h m (mem_markets_of_find? hfind)).regular.sound.snapshot_cases

/-- What is registered lacks a snapshot just where it is refused for an overflow. -/
theorem snapshot_eq_error_iff {r : Registry} (hfiled : r.Filed) (hregular : r.Regular)
    {label : Text} (hlabel : label ∈ r.labels) :
    r.snapshot label = .error .mathOverflow ↔ ∀ s ∈ r.snapshots, s.market.label ≠ label := by
  have hok {s : Market.Snapshot} := hfiled.snapshot_eq_ok_iff hlabel (s := s)
  constructor
  · intro hoverflow s hmem hs
    rw [hok.mpr ⟨hmem, hs⟩] at hoverflow
    exact absurd hoverflow (by simp)
  · intro hmissing
    rcases hregular.snapshot_cases hlabel with ⟨s, hs⟩ | hoverflow
    · obtain ⟨hmem, heq⟩ := hok.mp hs
      exact absurd heq (hmissing s hmem)
    · exact hoverflow

end Registry

/-- A label that is read is not empty. -/
theorem CreationForm.isEmpty_of_read {body : Option Json} {form : CreationForm}
    (h : read body = .ok form) : form.label.isEmpty = false := by
  unfold read at h
  obtain ⟨fields, -, h⟩ := bind_eq_ok_iff.mp h
  simp only at h
  split at h
  · rename_i hlabel _ _ _ _
    obtain rfl := Except.ok.inj h
    obtain ⟨t, -, ht⟩ := bind_eq_ok_iff.mp hlabel
    split at ht
    · exact absurd ht (by simp)
    · rename_i hfilled
      obtain rfl := Except.ok.inj ht
      simpa using hfilled
  · exact absurd h (by simp)

namespace Http

variable {settings : Settings} {now : Number} {request : Request} {r r' : Registry} {due : Reply}

/-! ## The labels that are served -/

theorem Effect.filed (hr : r.Filed) (h : Effect settings now request r due r') : r'.Filed := by
  obtain ⟨command, answer, hchange⟩ := h.change
  exact hchange.filed hr

theorem served_filed (env : Environment) (requests : List (Number × Request)) :
    (served env requests).Filed :=
  serve_induction (fun _ => Effect.filed) Registry.filed_empty

/-- What a label has to be for its market to be opened over a request. -/
structure Admitted (label : Text) : Prop where
  /-- There is something in the label. -/
  filled : label.isEmpty = false
  /-- The label is short enough. -/
  utf8Size_le : label.utf8Size ≤ maxLabelBytes

/-- A label that is admitted fits into a segment of a path. -/
theorem Admitted.utf8Size_le_segment {label : Text} (h : Admitted label) :
    label.utf8Size ≤ maxSegmentUnits :=
  h.utf8Size_le.trans (by decide)

theorem Effect.admitted (hr : ∀ label ∈ r.labels, Admitted label)
    (h : Effect settings now request r due r') : ∀ label ∈ r'.labels, Admitted label := by
  cases h with
  | nothing => exact hr
  | @creation form m hroute hbody hread hfree hopen =>
    intro label hlabel
    rw [Registry.labels_append, List.mem_append, List.mem_singleton] at hlabel
    rcases hlabel with hold | rfl
    · exact hr label hold
    · exact ⟨CreationForm.isEmpty_of_read hread, (Market.checks_of_ofTerms hopen).1⟩
  | trade => rwa [Registry.labels_replace]

theorem served_admitted (env : Environment) (requests : List (Number × Request)) :
    ∀ label ∈ (served env requests).labels, Admitted label :=
  serve_induction (P := fun r => ∀ label ∈ r.labels, Admitted label)
    (fun _ => Effect.admitted) (by simp)

/-! ## Answers to those who look -/

theorem Request.Gets.exists_path {route : Route} (h : request.Gets route) :
    ∃ path, request.target.path? = some path ∧ Route.find? request.method path = some route :=
  Option.bind_eq_some_iff.mp h.2

/-- Nobody looks at the body of a request to get something. -/
theorem Request.Gets.objection?_eq_none {route : Route} (h : request.Gets route) :
    request.objection? = none := by
  rw [Request.objection?, h.1]
  rfl

/-- Where answers can be sent, a request to get something is answered in full. -/
theorem Request.Gets.handle_eq {route : Route} (h : request.Gets route)
    (horigin : settings.origins.fault? = none) {path : List String}
    (hpath : request.target.path? = some path) :
    handle settings now request r = respond settings now request path r := by
  unfold handle
  rw [hpath, horigin]
  simp only [Request.asked_of_ne_head (by simp [h.1] : request.method ≠ .head)]

theorem Request.Gets.respond_list (h : request.Gets .list) {path : List String}
    (hfind : Route.find? request.method path = some .list) :
    respond settings now request path r = (list r, r) := by
  unfold respond
  rw [h.objection?_eq_none, hfind, h.1]

theorem Request.Gets.respond_snapshot {label : Text} (h : request.Gets (.snapshot label))
    {path : List String} (hfind : Route.find? request.method path = some (.snapshot label)) :
    respond settings now request path r = (snapshot label r, r) := by
  unfold respond
  rw [h.objection?_eq_none, hfind, h.1]

/-- The label of a path is looked up as it is. -/
theorem snapshot_eq {label : Text} (h : label.isEmpty = false) :
    snapshot label r = Reply.ofResult .shown (r.snapshot label) := by
  have hread : LabelForm.read (labelValue label) = .ok ⟨label⟩ := by
    simp [LabelForm.read, labelValue, Field.object?, Json.field?, Field.filledText, Field.text, h]
  unfold snapshot
  rw [hread]

theorem Request.Gets.handle_list (h : request.Gets .list)
    (horigin : settings.origins.fault? = none) : handle settings now request r = (list r, r) := by
  obtain ⟨path, hpath, hfind⟩ := h.exists_path
  rw [h.handle_eq horigin hpath, h.respond_list hfind]

theorem Request.Gets.handle_snapshot {label : Text} (h : request.Gets (.snapshot label))
    (horigin : settings.origins.fault? = none) (hlabel : label.isEmpty = false) :
    handle settings now request r = (Reply.ofResult .shown (r.snapshot label), r) := by
  obtain ⟨path, hpath, hfind⟩ := h.exists_path
  rw [h.handle_eq horigin hpath, h.respond_snapshot hfind, snapshot_eq hlabel]

/-- Where answers cannot be sent, the list is answered with an error. -/
theorem Request.Gets.status_list (h : request.Gets .list)
    (horigin : settings.origins.fault? ≠ none) :
    (handle settings now request r).1.status = 500 := by
  obtain ⟨path, hpath, hfind⟩ := h.exists_path
  obtain ⟨fault, hfault⟩ := Option.ne_none_iff_exists'.mp horigin
  unfold handle
  rw [hpath, hfault]
  cases fault with
  | blank => exact status_asked request path (.failed .noOrigin)
  | illegal =>
    simp only [h.respond_list hfind]
    rfl

/-- The reply has a status and carries a value. -/
def Reply.Tells (reply : Reply) (status : Nat) (value : Json) : Prop :=
  reply.status = status ∧ reply.content = .json value

/-- A result is shown with the status of success just where there is one. -/
theorem tells_shown_iff {result : Except MarketError Market.Snapshot} {value : Json} :
    (Reply.ofResult .shown result).Tells 200 value ↔ ∃ s, result = .ok s ∧ value = s.toJson := by
  cases result with
  | ok s =>
    constructor
    · rintro ⟨-, hcontent⟩
      exact ⟨s, rfl, (Content.json.inj hcontent).symm⟩
    · rintro ⟨shown, hs, rfl⟩
      obtain rfl := Except.ok.inj hs
      exact ⟨rfl, rfl⟩
  | error e =>
    have hle := le_status_refused e
    constructor
    · rintro ⟨hstatus, -⟩
      have h200 : (Reply.refused e).status = 200 := hstatus
      omega
    · rintro ⟨s, hs, -⟩
      exact absurd hs (by simp)

/-- A result that can only be refused for an overflow is refused just where it tells of one. -/
theorem tells_overflow_iff {result : Except MarketError Market.Snapshot}
    (h : (∃ s, result = .ok s) ∨ result = .error .mathOverflow) :
    (Reply.ofResult .shown result).Tells 422 MarketError.mathOverflow.toJson ↔
      result = .error .mathOverflow := by
  rcases h with ⟨s, rfl⟩ | rfl
  · constructor
    · rintro ⟨hstatus, -⟩
      have h200 : 200 = 422 := hstatus
      omega
    · intro herror
      exact absurd herror (by simp)
  · exact ⟨fun _ => rfl, fun _ => ⟨rfl, rfl⟩⟩

/-! ## The agreement -/

/-- The snapshots are those of the registry.  What they have is what everybody is shown who
looks for a label, and what they lack is refused for an overflow. -/
structure Collects (settings : Settings) (r : Registry) (data : List Market.Snapshot) : Prop where
  /-- The markets are listed in the order of their creation. -/
  sublist : (data.map fun s => s.market.label).Sublist r.labels
  /-- No market is listed twice. -/
  nodup : (data.map fun s => s.market.label).Nodup
  /-- What is registered has a snapshot just where it is listed. -/
  listed : ∀ label ∈ r.labels, ∀ s,
    r.snapshot label = .ok s ↔ s ∈ data ∧ s.market.label = label
  /-- What is registered has none because of an overflow just where it is missing. -/
  missing : ∀ label ∈ r.labels,
    r.snapshot label = .error .mathOverflow ↔ ∀ s ∈ data, s.market.label ≠ label
  /-- The answer to somebody who looks for a label is what the list has of it. -/
  shown : ∀ label ∈ r.labels, ∀ now request, request.Gets (.snapshot label) → ∀ value,
    (handle settings now request r).1.Tells 200 value ↔
      ∃ s ∈ data, s.market.label = label ∧ value = s.toJson
  /-- It tells of an overflow just where the list lacks the label. -/
  refused : ∀ label ∈ r.labels, ∀ now request, request.Gets (.snapshot label) →
    ((handle settings now request r).1.Tells 422 MarketError.mathOverflow.toJson ↔
      ∀ s ∈ data, s.market.label ≠ label)

/-- The snapshots of a registry agree with the answers about its labels. -/
theorem collects_snapshots (hfiled : r.Filed) (hregular : r.Regular) (hnodup : r.labels.Nodup)
    (hadmitted : ∀ label ∈ r.labels, Admitted label) (horigin : settings.origins.fault? = none) :
    Collects settings r r.snapshots where
  sublist := hfiled.labels_snapshots ▸ List.filter_sublist
  nodup := hfiled.labels_snapshots ▸ hnodup.filter _
  listed label hlabel s := hfiled.snapshot_eq_ok_iff hlabel
  missing label hlabel := Registry.snapshot_eq_error_iff hfiled hregular hlabel
  shown label hlabel now request hgets value := by
    rw [hgets.handle_snapshot horigin (hadmitted label hlabel).filled, tells_shown_iff]
    simp only [hfiled.snapshot_eq_ok_iff hlabel, and_assoc]
  refused label hlabel now request hgets := by
    rw [hgets.handle_snapshot horigin (hadmitted label hlabel).filled,
      tells_overflow_iff (hregular.snapshot_cases hlabel),
      Registry.snapshot_eq_error_iff hfiled hregular hlabel]

/-- Whatever requests came before, the list has the snapshots of the registry and their
number, and it agrees with the answers about single labels.  There is an exception: where no
answer can name the origin that is welcome, the list is an error.  A label that is registered
can be looked for just where no half of a surrogate pair stands in it. -/
theorem list_agrees_with_lookups (env : Environment) (requests : List (Number × Request)) (now : Number)
    {request : Request} (hlist : request.Gets .list) :
    let settings := Settings.ofEnvironment env
    let r := served env requests
    let answer := handle settings now request r
    (settings.origins.fault? = none → ∃ data, answer = (.listed data, r) ∧
      answer.1.Tells 200 (.object [("data", .array (data.map Market.Snapshot.toJson)),
        ("total", .ofInt data.length)]) ∧
      Collects settings r data) ∧
    (settings.origins.fault? ≠ none → answer.1.status = 500) ∧
    ∀ label ∈ r.labels,
      (∃ lookup : Request, lookup.Gets (.snapshot label)) ↔ label.string?.isSome := by
  intro settings r answer
  have hnodup : r.labels.Nodup := served_nodup_labels env requests
  have hadmitted := served_admitted env requests
  refine ⟨?_, hlist.status_list, ?_⟩
  · intro horigin
    have hanswer : answer = (.listed r.snapshots, r) := by
      rw [← Registry.list_eq hnodup]
      exact hlist.handle_list horigin
    refine ⟨r.snapshots, hanswer, ?_, ?_⟩
    · rw [hanswer]
      exact ⟨rfl, rfl⟩
    · exact collects_snapshots (served_filed env requests) (served_regular env requests) hnodup
        hadmitted horigin
  · intro label hlabel
    exact exists_gets_snapshot_iff (hadmitted label hlabel).utf8Size_le_segment

/-- A request for the list. -/
def listing : Request where
  method := .get
  target := ⟨"/api/markets".toList⟩
  received := none

/-- A request for a market of the greatest scale that may be asked for. -/
def oversizing (label : Text) : Request :=
  posting "/api/markets" [("label", .text label), ("admin", .text "a"), ("numOutcomes", .ofInt 3),
    ("scale", .text "18446744073709551615"), ("resolveAt", .ofInt 1000)]

/-- Half of a surrogate pair. -/
def half : Text := .ofUnits [.high 0]

/-- Of three markets one is listed. -/
theorem list_agrees_with_lookups_three :
    let settings := Settings.ofEnvironment Environment.empty
    let r := served Environment.empty
      [(0, opening "1000"), (0, oversizing "x"), (0, oversizing half)]
    listing.Gets .list ∧ settings.origins.fault? = none ∧ r.labels = [("m" : Text), "x", half] ∧
      ∃ data, handle settings 1 listing r = (.listed data, r) ∧
        data.map (fun s => s.market.label) = ["m"] ∧ Collects settings r data := by
  intro settings r
  have hlist : listing.Gets .list := ⟨rfl, by decide +kernel⟩
  have horigin : settings.origins.fault? = none := by decide +kernel
  have hlabels : r.labels = [("m" : Text), "x", half] := by decide +kernel
  have hsnapshots : r.snapshots.map (fun s => s.market.label) = ["m"] := by decide +kernel
  obtain ⟨hanswer, -, -⟩ := list_agrees_with_lookups Environment.empty
    [(0, opening "1000"), (0, oversizing "x"), (0, oversizing half)] 1 hlist
  obtain ⟨data, hdata, -, hcollects⟩ := hanswer horigin
  have heq : data = r.snapshots := by
    have hlisted := (hlist.handle_list horigin).symm.trans hdata
    rw [Registry.list_eq (served_nodup_labels _ _)] at hlisted
    exact (Reply.listed.inj (Prod.mk.inj hlisted).1).symm
  exact ⟨hlist, horigin, hlabels, data, hdata, heq ▸ hsnapshots, hcollects⟩

/-- A market under half of a surrogate pair is missing from the list, and whoever looks for it
is told that there is none.  An empty origin makes the list itself an error. -/
theorem missing_without_overflow :
    let settings := Settings.ofEnvironment Environment.empty
    let r := served Environment.empty [(0, oversizing half)]
    let path : Text := .ofUnits ("/api/markets/".toList.map Symbol.char ++ half.symbols)
    half ∈ r.labels ∧ (handle settings 1 listing r).1 = .listed [] ∧
      (∀ lookup : Request, ¬ lookup.Gets (.snapshot half)) ∧
      ((Request.read "GET" path none).toOption.map fun lookup =>
        (handle settings 1 lookup r).1) = some (.refused .marketNotFound) ∧
      (handle (Settings.ofEnvironment (.ofEntries [("CORS_ORIGIN", "")])) 0 listing
        Registry.empty).1.status = 500 := by
  intro settings r path
  have hunreachable : ∀ lookup : Request, ¬ lookup.Gets (.snapshot half) := by
    intro lookup hgets
    obtain ⟨s, hs⟩ := hgets.exists_string
    have hstring : half.string? = some s := Text.string?_eq_some_iff.mpr hs
    have hnone : half.string? = none := by decide
    exact absurd (hstring.symm.trans hnone) (by simp)
  have hlabels : half ∈ r.labels := by decide +kernel
  have hlisted : (handle settings 1 listing r).1 = .listed [] := by decide +kernel
  have hlooked : ((Request.read "GET" path none).toOption.map fun lookup =>
      (handle settings 1 lookup r).1) = some (.refused .marketNotFound) := by decide +kernel
  exact ⟨hlabels, hlisted, hunreachable, hlooked, by decide +kernel⟩

end Http

end PredictionMarket
