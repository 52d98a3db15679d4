import Nullary.Proofs.Codec.Envelopes
import Nullary.Proofs.Session.ServiceAnswers

/-!
# Calls that hand on what was answered last

A chain of calls builds value objects, and encodes and decodes what the service answered last, with
loads of other settings in between (`Session.Chain`).  The value that is handed on is one of three
(`Held`), and which of them it is decides every answer, be the service strict or not
(`Session.reply_of_links`).  So two chains of the same calls are answered alike.
Main statement: `Session.round_trips`.
-/

namespace Nullary

/-- Whether a call has no argument, or what was answered last. -/
def Request.IsChained (r : Request) : Prop :=
  r = .build ∨ r = .encode .last ∨ r = .decode .last

/-- What a chain of calls hands on: nothing, a value object, or its encoding. -/
inductive Held
  | nothing
  | object
  | encoding
  deriving DecidableEq

namespace Held

variable {h : Held} {r : Request}

def toValue : Held → Value
  | nothing => .null
  | object => .blank false
  | encoding => .mapping .dict []

/-- What is held after a call. -/
def next (h : Held) : Request → Held
  | .build => object
  | .encode _ => if h = object then encoding else nothing
  | .decode _ => if h = encoding then object else nothing

/-- What a call with the held value is answered, but for the time that it takes. -/
def answer (h : Held) : Request → Envelope
  | .build => Codec.succeeded "build" (.blank false) []
  | .encode _ =>
    if h = object then Codec.succeeded "encode" (.mapping .dict []) []
    else Envelope.failed "encode" "INVALID_VALUE"
      ("Cannot encode " ++ h.toValue.kindName ++ " as Type") [("type", .text h.toValue.kindName)]
  | .decode _ =>
    if h = encoding then Codec.succeeded "decode" (.blank false) []
    else Envelope.failed "decode" "INVALID_PAYLOAD"
      ("Type expects a mapping, got " ++ h.toValue.kindName) [("type", .text h.toValue.kindName)]

theorem toValue_cases (h : Held) :
    h.toValue = .null ∨ h.toValue = .blank false ∨ h.toValue = .mapping .dict [] := by
  cases h with
  | nothing => exact Or.inl rfl
  | object => exact Or.inr (Or.inl rfl)
  | encoding => exact Or.inr (Or.inr rfl)

theorem eq_object_iff : h = object ↔ ∃ derived, h.toValue = .blank derived := by
  cases h <;> simp [toValue]

theorem eq_encoding_iff : h = encoding ↔ h.toValue = .mapping .dict [] := by
  cases h <;> simp [toValue]

theorem next_eq_encoding (hr : h.next r = encoding) : ∃ a, r = .encode a ∧ h = object := by
  cases r with
  | build => cases hr
  | encode a =>
    simp only [next] at hr
    split at hr
    · next hobject => exact ⟨a, rfl, hobject⟩
    · cases hr
  | decode a =>
    simp only [next] at hr
    split at hr <;> cases hr

theorem valueOf_answer (h : Held) (r : Request) :
    Session.valueOf (h.answer r) = (h.next r).toValue := by
  cases r with
  | build => rfl
  | encode a => cases h <;> rfl
  | decode a => cases h <;> rfl

theorem warnings_answer (h : Held) (r : Request) : (h.answer r).warnings = [] := by
  cases r with
  | build => rfl
  | encode a => cases h <;> rfl
  | decode a => cases h <;> rfl

theorem code_of_fault_answer {f : Fault} (hf : (h.answer r).fault = some f) :
    f.code = "INVALID_VALUE" ∨ f.code = "INVALID_PAYLOAD" := by
  cases r with
  | build => cases hf
  | encode a =>
    simp only [answer] at hf
    split at hf
    · cases hf
    · exact Or.inl (Option.some.inj hf ▸ rfl)
  | decode a =>
    simp only [answer] at hf
    split at hf
    · cases hf
    · exact Or.inr (Option.some.inj hf ▸ rfl)

theorem data_answer_of_failed (hfailed : (h.answer r).ok = false) : (h.answer r).data = [] := by
  cases r with
  | build => cases hfailed
  | encode a =>
    simp only [answer] at hfailed ⊢
    split at hfailed
    · cases hfailed
    · next hother => rw [if_neg hother]; rfl
  | decode a =>
    simp only [answer] at hfailed ⊢
    split at hfailed
    · cases hfailed
    · next hother => rw [if_neg hother]; rfl

theorem ok_answer_encode (h : Held) (a : Argument) :
    (h.answer (.encode a)).ok = true ↔ h = object := by
  cases h <;> simp [answer, Codec.succeeded, Envelope.failed]

theorem ok_answer_decode (h : Held) (a : Argument) :
    (h.answer (.decode a)).ok = true ↔ h = encoding := by
  cases h <;> simp [answer, Codec.succeeded, Envelope.failed]

end Held

namespace Session

variable {s : Session} {m : Move} {moves : List Move} {held : Held} {r : Request}

/-! ### One move -/

/-- A move of a chain: a load that succeeds, or a chained call of a service that is there. -/
def Links (s : Session) (m : Move) : Prop :=
  (m.action.loads = true ∧ (s.loading? m).isSome) ∨
    ∃ r, m.action = .request r ∧ r.IsChained ∧ s.settings.isSome

/-- The service answers a call with the held value by this value alone, strict or lenient. -/
theorem result_perform (hr : r.IsChained) (hs : s.last = held.toValue) (strict : Bool) :
    (Codec.perform strict (s.operation r)).result = .ok (held.answer r) := by
  rcases hr with rfl | rfl | rfl
  · rfl
  · simp only [operation, argument, hs]
    cases held <;> rfl
  · simp only [operation, argument, hs]
    cases held with
    | nothing => rfl
    | object => rfl
    | encoding =>
      have hempty : Codec.Payload.empty.Describes (.mapping .dict []) := rfl
      exact hempty.result_decode strict

theorem reply_of_links (h : s.Links m) (hm : m.action = .request r)
    (hs : s.last = held.toValue) :
    (s.play m).reply = .ok (.envelope (Codec.stamped m.clock.micros (held.answer r))) ∧
      (s.play m).session.last = (held.next r).toValue := by
  rcases h with ⟨hloads, -⟩ | ⟨r', hm', hr, hset⟩
  · rw [hm] at hloads
    cases hloads
  · obtain rfl : r = r' := Action.request.inj (hm.symm.trans hm')
    obtain ⟨c, hc⟩ := Option.isSome_iff_exists.mp hset
    have hresult : (Codec.run c.codec.strict m.clock.micros (s.operation r)).result =
        .ok (Codec.stamped m.clock.micros (held.answer r)) := by
      rw [Codec.result_run, result_perform hr hs]
      rfl
    have hplay : s.play m = s.call m.clock c r := by simp only [play, hm, step, hc]
    rw [hplay, call]
    simp only [hresult, true_and]
    exact held.valueOf_answer r

theorem last_of_loads (h : m.action.loads = true) : (s.play m).session.last = s.last := by
  obtain ⟨clock, action⟩ := m
  cases action with
  | load given =>
    simp only [play, step, Session.load]
    split <;> rfl
  | serviceLoad given =>
    simp only [play, step, serviceLoad]
    split <;> rfl
  | _ => cases h

/-! ### Chains -/

/-- Moves each of which goes on with a chain. -/
inductive Chain : Session → List Move → Prop
  | nil (s : Session) : Chain s []
  | cons {s : Session} {m : Move} {moves : List Move} (h : s.Links m)
      (rest : Chain (s.play m).session moves) : Chain s (m :: moves)

theorem chain_append {before later : List Move} :
    Chain s (before ++ later) ↔ Chain s before ∧ Chain (s.after before) later := by
  induction before generalizing s with
  | nil => exact ⟨fun h => ⟨.nil s, h⟩, fun h => h.2⟩
  | cons m before ih =>
    constructor
    · rintro (_ | ⟨hm, hrest⟩)
      obtain ⟨hbefore, hlater⟩ := ih.mp hrest
      exact ⟨.cons hm hbefore, hlater⟩
    · rintro ⟨_ | ⟨hm, hbefore⟩, hlater⟩
      exact .cons hm (ih.mpr ⟨hbefore, hlater⟩)

theorem Chain.links {before : List Move} (h : Chain s (before ++ m :: moves)) :
    (s.after before).Links m := by
  obtain ⟨-, _ | ⟨hm, -⟩⟩ := chain_append.mp h
  exact hm

/-- The call that a move makes, if it makes one. -/
def request? (m : Move) : Option Request :=
  match m.action with
  | .request r => some r
  | _ => none

theorem request?_eq_some_iff : request? m = some r ↔ m.action = .request r := by
  obtain ⟨clock, action⟩ := m
  cases action <;> simp [request?]

theorem loads_of_request?_eq_none (h : s.Links m) (hm : request? m = none) :
    m.action.loads = true := by
  rcases h with ⟨hloads, -⟩ | ⟨r, hr, -⟩
  · exact hloads
  · cases (request?_eq_some_iff.mpr hr).symm.trans hm

/-- What is held after the calls among some moves. -/
def heldAfter (h : Held) (moves : List Move) : Held :=
  (moves.filterMap request?).foldl Held.next h

theorem heldAfter_nil (h : Held) : heldAfter h [] = h := rfl

theorem heldAfter_cons_of_none {h : Held} (hm : request? m = none) :
    heldAfter h (m :: moves) = heldAfter h moves := by
  rw [heldAfter, heldAfter, List.filterMap_cons_none hm]

theorem heldAfter_cons_of_some {h : Held} (hm : request? m = some r) :
    heldAfter h (m :: moves) = heldAfter (h.next r) moves := by
  rw [heldAfter, heldAfter, List.filterMap_cons_some hm, List.foldl_cons]

theorem heldAfter_append (h : Held) (before later : List Move) :
    heldAfter h (before ++ later) = heldAfter (heldAfter h before) later := by
  rw [heldAfter, heldAfter, heldAfter, List.filterMap_append, List.foldl_append]

/-- The answers to the calls among some moves. -/
def answers (s : Session) : List Move → List (Except ActionError Reply)
  | [] => []
  | m :: moves =>
    let later := answers (s.play m).session moves
    match request? m with
    | some _ => (s.play m).reply :: later
    | none => later

/-- What calls are answered, one after another, but for the time that they take. -/
def exchange : Held → List Request → List Envelope
  | _, [] => []
  | h, r :: rs => { h.answer r with remarks := some [] } :: exchange (h.next r) rs

theorem last_after (hc : Chain s moves) {h : Held} (hs : s.last = h.toValue) :
    (s.after moves).last = (heldAfter h moves).toValue := by
  induction hc generalizing h with
  | nil s => exact hs
  | @cons s m moves hm _ ih =>
    rw [after_cons]
    cases hr : request? m with
    | none =>
      rw [heldAfter_cons_of_none hr]
      exact ih ((last_of_loads (loads_of_request?_eq_none hm hr)).trans hs)
    | some r =>
      rw [heldAfter_cons_of_some hr]
      exact ih (reply_of_links hm (request?_eq_some_iff.mp hr) hs).2

theorem answers_eq_exchange (hc : Chain s moves) {h : Held} (hs : s.last = h.toValue) :
    (answers s moves).map (Except.map Reply.untimed) =
      (exchange h (moves.filterMap request?)).map fun e => .ok (.envelope e) := by
  induction hc generalizing h with
  | nil s => rfl
  | @cons s m moves hm _ ih =>
    cases hr : request? m with
    | none =>
      simp only [answers, hr, List.filterMap_cons_none]
      exact ih ((last_of_loads (loads_of_request?_eq_none hm hr)).trans hs)
    | some r =>
      obtain ⟨hreply, hlast⟩ := reply_of_links hm (request?_eq_some_iff.mp hr) hs
      rw [List.filterMap_cons_some hr, exchange, List.map_cons, ← ih hlast]
      simp only [answers, hr, List.map_cons, hreply]
      rfl

/-- An encoding is held only after a call that has encoded a value object. -/
theorem exists_encode (hc : Chain s moves) {h : Held} (hs : h ≠ .encoding)
    (hheld : heldAfter h moves = .encoding) : ∃ before m later, moves = before ++ m :: later ∧
      m.action = .request (.encode .last) ∧ later.filterMap request? = [] ∧
      heldAfter h before = .object := by
  induction moves using List.reverseRecOn with
  | nil => exact absurd hheld hs
  | append_singleton moves m ih =>
    have hm := hc.links
    cases hr : request? m with
    | none =>
      rw [heldAfter_append, heldAfter_cons_of_none hr, heldAfter_nil] at hheld
      obtain ⟨before, m', later, rfl, hm', hlater, hbefore⟩ := ih (chain_append.mp hc).1 hheld
      refine ⟨before, m', later ++ [m], by simp, hm', ?_, hbefore⟩
      rw [List.filterMap_append, hlater, List.filterMap_cons_none hr]
      rfl
    | some r =>
      rw [heldAfter_append, heldAfter_cons_of_some hr, heldAfter_nil] at hheld
      obtain ⟨a, rfl, hobject⟩ := Held.next_eq_encoding hheld
      have haction := request?_eq_some_iff.mp hr
      rcases hm with ⟨hloads, -⟩ | ⟨r', hr', hchained, -⟩
      · rw [haction] at hloads
        cases hloads
      · obtain rfl := Action.request.inj (haction.symm.trans hr')
        obtain rfl : a = .last := by rcases hchained with h | h | h <;> cases h; rfl
        exact ⟨moves, m, [], rfl, haction, rfl, hobject⟩

/-! ### Round trips -/

/-- What a call is answered after some moves, and what this has to do with the value held. -/
structure Answered (s : Session) (before : List Move) (m : Move) (r : Request) (e : Envelope) :
    Prop where
  reply : ((s.after before).play m).reply = .ok (.envelope e)
  last : ((s.after before).play m).session.last = (e.data.get? "value").getD .null
  failed : e.ok = false → ((s.after before).play m).session.last = .null
  build : r = .build → e.ok = true
  encode : r = .encode .last → (e.ok = true ↔ ∃ derived, (s.after before).last = .blank derived)
  decode : r = .decode .last → (e.ok = true ↔ (s.after before).last = .mapping .dict [])
  warnings : e.warnings = []
  fault : ∀ f, e.fault = some f → f.code ≠ "UNKNOWN_FIELDS"

variable {before : List Move} {e : Envelope}

theorem answered (hc : Chain s (before ++ m :: moves)) {h : Held} (hs : s.last = h.toValue)
    (hm : m.action = .request r) :
    Answered s before m r (Codec.stamped m.clock.micros ((heldAfter h before).answer r)) := by
  have hlast := last_after (chain_append.mp hc).1 hs
  obtain ⟨hreply, hnext⟩ := reply_of_links hc.links hm hlast
  have hvalue := hnext.trans ((heldAfter h before).valueOf_answer r).symm
  refine ⟨hreply, hvalue, fun hfailed => ?_, ?_, ?_, ?_, ?_, fun f hf => ?_⟩
  · have hdata : ((heldAfter h before).answer r).data = [] :=
      Held.data_answer_of_failed hfailed
    rw [hvalue, valueOf, hdata]
    rfl
  · rintro rfl
    rfl
  · rintro rfl
    rw [hlast, ← Held.eq_object_iff]
    exact Held.ok_answer_encode _ _
  · rintro rfl
    rw [hlast, ← Held.eq_encoding_iff]
    exact Held.ok_answer_decode _ _
  · exact Held.warnings_answer _ r
  · rcases Held.code_of_fault_answer hf with hcode | hcode
    · rw [hcode]
      decide
    · rw [hcode]
      decide

/-- An encoding that is held is the answer to the last call. -/
theorem exists_encoded (hc : Chain s moves) {h : Held} (hs : s.last = h.toValue)
    (hne : h ≠ .encoding) (hheld : heldAfter h moves = .encoding) :
    ∃ before m later e, moves = before ++ m :: later ∧ m.action = .request (.encode .last) ∧
      later.filterMap request? = [] ∧ Answered s before m (.encode .last) e ∧ e.ok = true := by
  obtain ⟨before, m, later, rfl, hm, hlater, hobject⟩ := exists_encode hc hne hheld
  exact ⟨before, m, later, _, rfl, hm, hlater, answered hc hs hm,
    (Held.ok_answer_encode _ _).mpr hobject⟩

theorem same_of_encoded (hc : Chain s (before ++ m :: moves)) {h : Held} (hs : s.last = h.toValue)
    (hm : m.action = .request (.encode .last))
    (hreply : ((s.after before).play m).reply = .ok (.envelope e)) (hok : e.ok = true) :
    Value.same (s.after before).last (.blank false) = true := by
  have hencoded := answered hc hs hm
  obtain rfl : _ = e := Reply.envelope.inj (Except.ok.inj (hencoded.reply.symm.trans hreply))
  obtain ⟨derived, hlast⟩ := (hencoded.encode rfl).mp hok
  rw [hlast]
  simp [Value.same]

/--
**Round trips compose.**  Along a chain of calls the value answered last is null, a value object or
the empty mapping.  Building always succeeds, encoding just for a value object and decoding just for
the empty mapping, without warnings or complaints of names.  What is decoded was encoded by the call
before, and is equal to every value that has been encoded.  And whatever settings are loaded in
between, the same calls are answered alike.
-/
theorem round_trips (w : World) (terminal : Bool) (moves : List Move)
    (hc : Chain (start w terminal) moves) :
    let s := start w terminal
    (∀ before later, moves = before ++ later → (s.after before).last = .null ∨
      (s.after before).last = .blank false ∨ (s.after before).last = .mapping .dict []) ∧
    (∀ before m later r, moves = before ++ m :: later → m.action = .request r →
      ∃ e, Answered s before m r e ∧ (r = .decode .last → e.ok = true →
        (∃ earlier m' between e', before = earlier ++ m' :: between ∧
          m'.action = .request (.encode .last) ∧ between.filterMap request? = [] ∧
          Answered s earlier m' (.encode .last) e' ∧ e'.ok = true) ∧
        ∀ earlier m' between e', before = earlier ++ m' :: between →
          m'.action = .request (.encode .last) →
          ((s.after earlier).play m').reply = .ok (.envelope e') → e'.ok = true →
          ∃ v, e.data = [("value", v)] ∧ Value.same (s.after earlier).last v = true)) ∧
    ∀ (w' : World) (terminal' : Bool) (moves' : List Move), Chain (start w' terminal') moves' →
      moves'.filterMap request? = moves.filterMap request? →
      ((start w' terminal').after moves').last = (s.after moves).last ∧
      (answers (start w' terminal') moves').map (Except.map Reply.untimed) =
        (answers s moves).map (Except.map Reply.untimed) := by
  intro s
  have hs : s.last = Held.nothing.toValue := rfl
  refine ⟨?_, ?_, ?_⟩
  · rintro before later rfl
    rw [last_after (chain_append.mp hc).1 hs]
    exact Held.toValue_cases _
  · rintro before m later r rfl hm
    have hanswered := answered hc hs hm
    refine ⟨_, hanswered, ?_⟩
    rintro rfl hok
    have hencoding : heldAfter .nothing before = .encoding :=
      (Held.ok_answer_decode _ _).mp hok
    have hbefore := (chain_append.mp hc).1
    refine ⟨exists_encoded hbefore hs (by decide) hencoding, ?_⟩
    rintro earlier m' between e' rfl hm' hreply hok'
    refine ⟨.blank false, ?_, same_of_encoded hbefore hs hm' hreply hok'⟩
    rw [hencoding]
    rfl
  · intro w' terminal' moves' hc' hrequests
    have hs' : (start w' terminal').last = Held.nothing.toValue := rfl
    refine ⟨?_, ?_⟩
    · rw [last_after hc' hs', last_after hc hs, heldAfter, heldAfter, hrequests]
    · rw [answers_eq_exchange hc' hs', answers_eq_exchange hc hs, hrequests]

/-- The arguments of a caller who names a file and wants a strict decoder. -/
def strictGiven : Fields Value :=
  [("config_path", .path World.topFile), ("codec", .mapping .dict [(.text "strict", .bool true)])]

theorem loadBy_strictGiven (loader : String) :
    Settings.loadBy loader .empty strictGiven = .ok ⟨none, false, false, ⟨true⟩⟩ := by
  have hselect : Discovery.select .empty (.path World.topFile) .null = .ok none :=
    Settings.select_path (World.isFile_topFile_of_none rfl) .null
  show Settings.load .empty ⟨.path World.topFile, .null,
    [("codec", .mapping .dict [(.text "strict", .bool true)])]⟩ = _
  rw [Settings.load_eq_answer hselect rfl]
  rfl

/-- A round trip that a lenient service begins and a strict one ends. -/
def tripMoves : List Move :=
  [⟨.epoch, .load (Settings.logFlags false false)⟩, ⟨.epoch, .request .build⟩,
    ⟨.epoch, .request (.encode .last)⟩, ⟨.epoch, .serviceLoad strictGiven⟩,
    ⟨⟨"", 7⟩, .request (.decode .last)⟩]

theorem world_play_request (s : Session) (clock : Clock) (r : Request) :
    (s.play ⟨clock, .request r⟩).session.world = s.world := by
  simp only [play, step]
  split
  · simp only [call]
    split <;> rfl
  · rfl

theorem settings_play_request (s : Session) (clock : Clock) (r : Request) :
    (s.play ⟨clock, .request r⟩).session.settings = s.settings := by
  rw [settings_play, loading?_of_loads_eq_false rfl, Option.none_or]

theorem play_lenient (hw : s.world = .empty) (clock : Clock) :
    s.play ⟨clock, .load (Settings.logFlags false false)⟩ =
      quiet { s with settings := some ⟨none, false, false, ⟨false⟩⟩ }
        (.ok (.settings ⟨none, false, false, ⟨false⟩⟩)) := by
  simp [play, step, Session.load, hw, Settings.loadBy_logFlags]

theorem play_strict (hw : s.world = .empty) (clock : Clock) :
    s.play ⟨clock, .serviceLoad strictGiven⟩ =
      quiet (configureBy { s with settings := some ⟨none, false, false, ⟨true⟩⟩ }
        ⟨none, false, false, ⟨true⟩⟩) (.ok (.settings ⟨none, false, false, ⟨true⟩⟩)) := by
  simp [play, step, serviceLoad, hw, loadBy_strictGiven]

theorem chain_tripMoves : Chain (start .empty false) tripMoves := by
  have hlenient := play_lenient (s := start .empty false) rfl .epoch
  refine .cons (.inl ⟨rfl, ?_⟩) ?_
  · simp [loading?, hlenient, quiet]
  rw [hlenient]
  refine .cons (.inr ⟨.build, rfl, .inl rfl, rfl⟩) ?_
  refine .cons (.inr ⟨.encode .last, rfl, .inr (.inl rfl), ?_⟩) ?_
  · rw [settings_play_request]
    rfl
  generalize hs : (Session.play (Session.play _ _).session _).session = s
  have hw : s.world = .empty := by
    rw [← hs, world_play_request, world_play_request]
    rfl
  have hstrict := play_strict hw .epoch
  refine .cons (.inl ⟨rfl, ?_⟩) ?_
  · simp [loading?, hstrict, quiet]
  rw [hstrict]
  exact .cons (.inr ⟨.decode .last, rfl, .inr (.inr rfl), rfl⟩) (.nil _)

theorem round_trips_strict : Chain (start .empty false) tripMoves ∧
    ∃ e, (((start .empty false).after tripMoves.dropLast).play
      ⟨⟨"", 7⟩, .request (.decode .last)⟩).reply = .ok (.envelope e) ∧ e.warnings = [] ∧
      e.ok = true := by
  have hsplit : tripMoves =
      tripMoves.dropLast ++ ⟨⟨"", 7⟩, .request (.decode .last)⟩ :: [] := rfl
  have hencoding : heldAfter .nothing tripMoves.dropLast = .encoding := rfl
  have hlast : ((start .empty false).after tripMoves.dropLast).last = .mapping .dict [] := by
    rw [last_after (h := .nothing) (chain_append.mp (hsplit ▸ chain_tripMoves)).1 rfl, hencoding]
    rfl
  obtain ⟨e, he, -⟩ :=
    (round_trips .empty false tripMoves chain_tripMoves).2.1 _ _ _ _ hsplit rfl
  exact ⟨chain_tripMoves, e, he.reply, he.warnings, (he.decode rfl).mpr hlast⟩

end Session

end Nullary
