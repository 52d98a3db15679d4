import Mathlib
import Nullary.Envelope.Failure
import Nullary.Proofs.Except
import Nullary.Proofs.Fields
import Nullary.Proofs.Settings.Check

/-!
# Failures from call arguments

Every parameter of a call is supplied with the argument at its place and with the one of its name
(`Call.supplies`), and a call binds where each has just one value (`Call.Binds`).  The names that
are assigned twice come first among the complaints (`Call.bind_of_clash`), then surplus arguments,
then parameters without a value.  The values are checked as texts (`Check.Reads`), and what is left
of the named arguments is the detail of the failure, as it stands.
Main statement: `Envelope.failure_answers`.
-/

namespace Nullary

/-! ### Texts -/

namespace Check

/-- The text that a value is taken for: a text is taken as it stands, bytes for what they encode. -/
inductive Reads : Value → String → Prop
  | text (s : String) : Reads (.text s) s
  | bytes {bs : List UInt8} {cs : List Char} (h : Utf8.decode bs = .ok cs) :
      Reads (.bytes bs) (String.ofList cs)

theorem text_eq_ok_iff {v : Value} {s : String} : Check.text v = .ok s ↔ Reads v s := by
  constructor
  · intro h
    cases v with
    | text s' => exact Except.ok.inj h ▸ .text s'
    | bytes bs =>
      simp only [Check.text] at h
      split at h
      · next cs hcs => exact Except.ok.inj h ▸ .bytes hcs
      · cases h
    | _ => cases h
  · rintro (_ | h)
    · rfl
    · simp only [Check.text, h]

/-- What is wrong with the value of a field that has to be a text. -/
def refusals (name : String) (v : Value) : List Issue :=
  match Check.text v with
  | .ok _ => []
  | .error kind => [⟨kind, [.name name], v⟩]

theorem refusals_eq_nil_iff {name : String} {v : Value} :
    refusals name v = [] ↔ ∃ s, Reads v s := by
  unfold refusals
  constructor
  · intro h
    split at h
    · next s hs => exact ⟨s, text_eq_ok_iff.mp hs⟩
    · cases h
  · rintro ⟨s, hs⟩
    rw [text_eq_ok_iff.mpr hs]

theorem atPlace_text (name : String) (v : Value) :
    atPlace [.name name] Check.text v =
      match Check.text v with
      | .ok s => .ok s
      | .error _ => .error (refusals name v) := by
  unfold atPlace refusals
  cases Check.text v <;> rfl

/-- Named values are a record as they stand. -/
theorem fields_ofFields {p : List Place} {f : Fields Value} (h : f.keys.Nodup) :
    Check.fields p (Value.ofFields f) = .ok f := by
  have hentries : ∀ f : Fields Value,
      entryFields p (f.map fun e => (.text e.1, e.2)) = .ok f := by
    intro f
    induction f with
    | nil => rfl
    | cons e f ih => simp [entryFields, atPlace, Check.text, ih, both]
  rw [Check.fields, Value.ofFields]
  simp only [Value.entries?, hentries]
  exact congrArg Except.ok (Fields.ofList_of_nodup h)

end Check

/-! ### Binding -/

namespace Call

/-- The values that a parameter is supplied with: the argument at its place, and those of its
name. -/
def supplies (args : List Value) (named : Fields Value) (name : String) : List Value :=
  args[parameters.idxOf name]?.toList ++ (named.filter fun e => e.1 == name).map Prod.snd

/-- A name that is assigned without being given: the class's, or that of a parameter at whose place
there is an argument. -/
def Clashes (args : List Value) (name : String) : Prop :=
  name = receiver ∨ name ∈ parameters.take args.length

/-- Each parameter is supplied with one value, there is no argument without a place, and no name of
the class. -/
structure Binds (args : List Value) (named : Fields Value) (op code message : Value) : Prop where
  receiver : receiver ∉ named.keys
  few : args.length ≤ parameters.length
  op : supplies args named "op" = [op]
  code : supplies args named "code" = [code]
  message : supplies args named "message" = [message]

/-- The named arguments that are no parameters, in their order. -/
def details (named : Fields Value) : Fields Value :=
  named.filter fun e => !parameters.contains e.1

variable {args : List Value} {named : Fields Value} {name : String} {op code message : Value}

theorem isTaken_iff : isTaken args name = true ↔ Clashes args name := by
  rw [isTaken, Bool.or_eq_true, beq_iff_eq, Fields.has_iff, positional, Fields.keys_zip, Clashes]

theorem supplies_eq (hn : named.keys.Nodup) (h : name ∈ parameters) :
    supplies args named name =
      ((positional args).get? name).toList ++ (named.get? name).toList := by
  rw [supplies, Fields.filter_eq_get? hn, positional, Fields.get?_zip, if_pos h]

/-- A parameter that is assigned by its place is given by its name only in a clash. -/
theorem not_mem_keys (hno : ∀ k ∈ named.keys, ¬ Clashes args k)
    (h : (positional args).has name = true) : name ∉ named.keys := by
  rw [Fields.has_iff, positional, Fields.keys_zip] at h
  exact fun hk => hno name hk (Or.inr h)

theorem supplies_eq_assigned? (hn : named.keys.Nodup)
    (hno : ∀ k ∈ named.keys, ¬ Clashes args k) (h : name ∈ parameters) :
    supplies args named name = (assigned? args named name).toList := by
  rw [supplies_eq hn h, assigned?]
  cases hp : (positional args).get? name with
  | none => rfl
  | some v =>
    have hnone : named.get? name = none :=
      Fields.get?_eq_none_iff.mpr (not_mem_keys hno (by simp [Fields.has, hp]))
    simp [hnone]

theorem find?_isTaken_eq_none (hno : ∀ k ∈ named.keys, ¬ Clashes args k) :
    named.keys.find? (isTaken args) = none :=
  List.find?_eq_none.mpr fun k hk htaken => hno k hk (isTaken_iff.mp htaken)

theorem Binds.not_clashes (hn : named.keys.Nodup) (h : Binds args named op code message) :
    ∀ k ∈ named.keys, ¬ Clashes args k := by
  rintro k hk (rfl | hplace)
  · exact h.receiver hk
  · -- what stands at its place and under its name would be two values
    have hmem : k ∈ parameters := List.mem_of_mem_take hplace
    have htwo : 2 ≤ (supplies args named k).length := by
      rw [supplies_eq hn hmem]
      have hleft : ((positional args).get? k).isSome :=
        Fields.has_iff.mpr (by rwa [positional, Fields.keys_zip])
      have hright : (named.get? k).isSome := Fields.has_iff.mpr hk
      obtain ⟨v, hv⟩ := Option.isSome_iff_exists.mp hleft
      obtain ⟨w, hw⟩ := Option.isSome_iff_exists.mp hright
      simp [hv, hw]
    simp only [parameters, List.mem_cons, List.not_mem_nil, or_false] at hmem
    rcases hmem with rfl | rfl | rfl
    · simp [h.op] at htwo
    · simp [h.code] at htwo
    · simp [h.message] at htwo

/-- The first of the names that are given and clash is the one that is complained of. -/
theorem bind_of_clash {before after : List String} (hkeys : named.keys = before ++ name :: after)
    (hfirst : ∀ k ∈ before, ¬ Clashes args k) (h : Clashes args name) :
    bind args named = .error (.clash name) := by
  have hbefore : before.find? (isTaken args) = none :=
    List.find?_eq_none.mpr fun k hk htaken => hfirst k hk (isTaken_iff.mp htaken)
  rw [bind, hkeys, List.find?_append, hbefore, List.find?_cons, isTaken_iff.mpr h]
  rfl

theorem bind_of_surplus (hno : ∀ k ∈ named.keys, ¬ Clashes args k)
    (h : parameters.length < args.length) : bind args named = .error (.surplus args.length) := by
  rw [bind, find?_isTaken_eq_none hno]
  simp only [gt_iff_lt, if_pos h]

theorem unassigned_eq (hn : named.keys.Nodup) :
    unassigned args named = parameters.filter fun k => (supplies args named k).isEmpty := by
  refine List.filter_congr fun k hk => ?_
  rw [supplies_eq hn hk, Fields.has, Fields.has]
  cases (positional args).get? k <;> cases named.get? k <;> rfl

theorem bind_of_missing (hn : named.keys.Nodup) (hno : ∀ k ∈ named.keys, ¬ Clashes args k)
    (hfew : args.length ≤ parameters.length)
    (h : ∃ k ∈ parameters, supplies args named k = []) :
    bind args named =
      .error (.missing (parameters.filter fun k => (supplies args named k).isEmpty)) := by
  rw [bind, find?_isTaken_eq_none hno]
  simp only [gt_iff_lt, if_neg (Nat.not_lt.mpr hfew)]
  split
  · next op code message hop hcode hmessage =>
    obtain ⟨k, hk, hnone⟩ := h
    rw [supplies_eq_assigned? hn hno hk] at hnone
    simp only [parameters, List.mem_cons, List.not_mem_nil, or_false] at hk
    rcases hk with rfl | rfl | rfl
    · simp [hop] at hnone
    · simp [hcode] at hnone
    · simp [hmessage] at hnone
  · rw [unassigned_eq hn]

theorem Binds.bind_eq (hn : named.keys.Nodup) (h : Binds args named op code message) :
    bind args named = .ok ⟨op, code, message, details named⟩ := by
  have hno := h.not_clashes hn
  have hassigned : ∀ {k v}, k ∈ parameters → supplies args named k = [v] →
      assigned? args named k = some v := by
    intro k v hk hv
    rw [supplies_eq_assigned? hn hno hk] at hv
    exact Option.toList_eq_singleton_iff.mp hv
  rw [bind, find?_isTaken_eq_none hno]
  simp only [gt_iff_lt, if_neg (Nat.not_lt.mpr h.few), hassigned (by decide) h.op,
    hassigned (by decide) h.code, hassigned (by decide) h.message, details]

theorem binds_of_bind_eq_ok (hn : named.keys.Nodup) {a : Assignment}
    (h : bind args named = .ok a) : Binds args named a.op a.code a.message := by
  unfold bind at h
  split at h
  · cases h
  · next hfind =>
    have hno : ∀ k ∈ named.keys, ¬ Clashes args k := fun k hk hclash =>
      List.find?_eq_none.mp hfind k hk (isTaken_iff.mpr hclash)
    split at h
    · cases h
    · next hfew =>
      split at h
      · next op code message hop hcode hmessage =>
        obtain rfl := Except.ok.inj h
        have hone : ∀ {k v}, k ∈ parameters → assigned? args named k = some v →
            supplies args named k = [v] := by
          intro k v hk hv
          rw [supplies_eq_assigned? hn hno hk, hv]
          rfl
        exact ⟨fun hk => hno _ hk (Or.inl rfl), Nat.not_lt.mp hfew, hone (by decide) hop,
          hone (by decide) hcode, hone (by decide) hmessage⟩
      · cases h

end Call

/-! ### Failures -/

theorem Fault.check_eq (code message : Value) {detail : Fields Value} (h : detail.keys.Nodup) :
    Fault.check [("code", code), ("message", message), ("detail", Value.ofFields detail)] =
      match Check.text code, Check.text message with
      | .ok c, .ok m => .ok ⟨c, m, detail⟩
      | _, _ => .error ⟨Fault.name,
          Check.refusals "code" code ++ Check.refusals "message" message⟩ := by
  have hdetail := Check.fields_ofFields (p := [.name "detail"]) h
  simp only [Fault.check, Fault.checkFields, Check.required, Check.optional, Fields.get?,
    List.nil_append, Check.atPlace_text, reduceIte, hdetail, String.reduceEq]
  unfold Check.refusals
  cases Check.text code <;> cases Check.text message <;> rfl

namespace Envelope

theorem check_failed (op : Value) (f : Fault) :
    check [("ok", .bool false), ("op", op), ("error", f.toValue)] =
      match Check.text op with
      | .ok s => .ok (failed s f.code f.message f.detail)
      | .error _ => .error ⟨name, Check.refusals "op" op⟩ := by
  simp only [check, Check.required, Check.optional, Fields.get?, List.nil_append,
    Check.atPlace_text, reduceIte, String.reduceEq]
  unfold Check.refusals
  cases Check.text op <;> rfl

variable {args : List Value} {named : Fields Value}

theorem failure_of_bind_error {e : BindError} (h : Call.bind args named = .error e) :
    failure args named = .error (.unbound e) := by
  rw [failure, h]

/-- What comes of a call that binds: its values are checked as texts, `op` after the others. -/
theorem failure_of_binds (hn : named.keys.Nodup) {op code message : Value}
    (h : Call.Binds args named op code message) :
    failure args named =
      match Check.text code, Check.text message with
      | .ok c, .ok m =>
        match Check.text op with
        | .ok s => .ok (failed s c m (Call.details named))
        | .error _ => .error (.rejected ⟨name, Check.refusals "op" op⟩)
      | _, _ => .error (.rejected ⟨Fault.name,
          Check.refusals "code" code ++ Check.refusals "message" message⟩) := by
  have hdetail : (Call.details named).keys.Nodup :=
    hn.sublist (List.filter_sublist.map Prod.fst)
  simp only [failure, h.bind_eq hn, Fault.check_eq code message hdetail]
  cases Check.text code with
  | error _ => rfl
  | ok c =>
    cases Check.text message with
    | error _ => rfl
    | ok m =>
      simp only [check_failed]
      cases Check.text op <;> rfl

/-- A call gives an envelope exactly where it binds to texts. -/
theorem failure_eq_ok_iff (hn : named.keys.Nodup) {e : Envelope} :
    failure args named = .ok e ↔ ∃ op code message,
      Call.Binds args named op code message ∧ Check.Reads op e.op ∧ e.ok = false ∧ e.data = [] ∧
      e.warnings = [] ∧ e.remarks = none ∧ ∃ f, e.fault = some f ∧ Check.Reads code f.code ∧
      Check.Reads message f.message ∧ f.detail = Call.details named := by
  constructor
  · intro h
    obtain ⟨a, ha⟩ : ∃ a, Call.bind args named = .ok a := by
      cases hb : Call.bind args named with
      | ok a => exact ⟨a, rfl⟩
      | error err => cases (failure_of_bind_error hb).symm.trans h
    have hbinds := Call.binds_of_bind_eq_ok hn ha
    rw [failure_of_binds hn hbinds] at h
    split at h
    · next c m hc hm =>
      split at h
      · next s hs =>
        obtain rfl := Except.ok.inj h
        exact ⟨a.op, a.code, a.message, hbinds, Check.text_eq_ok_iff.mp hs, rfl, rfl, rfl, rfl, _,
          rfl, Check.text_eq_ok_iff.mp hc, Check.text_eq_ok_iff.mp hm, rfl⟩
      · cases h
    · cases h
  · rintro ⟨op, code, message, hbinds, hop, hok, hdata, hwarnings, hremarks, f, hfault, hcode,
      hmessage, hdetail⟩
    rw [failure_of_binds hn hbinds, Check.text_eq_ok_iff.mpr hop, Check.text_eq_ok_iff.mpr hcode,
      Check.text_eq_ok_iff.mpr hmessage]
    obtain ⟨ok, op, data, warnings, fault, remarks⟩ := e
    obtain ⟨code, message, detail⟩ := f
    simp only at hok hdata hwarnings hremarks hfault hdetail
    subst hok hdata hwarnings hremarks hfault hdetail
    rfl

section

variable {op code message : Value}

theorem failure_of_fault_refusals (hn : named.keys.Nodup)
    (h : Call.Binds args named op code message)
    (hrefused : Check.refusals "code" code ++ Check.refusals "message" message ≠ []) :
    failure args named = .error (.rejected ⟨Fault.name,
      Check.refusals "code" code ++ Check.refusals "message" message⟩) := by
  rw [failure_of_binds hn h]
  split
  · next c m hc hm =>
    refine absurd (List.append_eq_nil_iff.mpr ⟨?_, ?_⟩) hrefused
    · exact Check.refusals_eq_nil_iff.mpr ⟨c, Check.text_eq_ok_iff.mp hc⟩
    · exact Check.refusals_eq_nil_iff.mpr ⟨m, Check.text_eq_ok_iff.mp hm⟩
  · rfl

theorem failure_of_op_refusals (hn : named.keys.Nodup)
    (h : Call.Binds args named op code message)
    (hread : Check.refusals "code" code ++ Check.refusals "message" message = [])
    (hrefused : Check.refusals "op" op ≠ []) :
    failure args named = .error (.rejected ⟨name, Check.refusals "op" op⟩) := by
  obtain ⟨hcode, hmessage⟩ := List.append_eq_nil_iff.mp hread
  obtain ⟨c, hc⟩ := Check.refusals_eq_nil_iff.mp hcode
  obtain ⟨m, hm⟩ := Check.refusals_eq_nil_iff.mp hmessage
  rw [failure_of_binds hn h, Check.text_eq_ok_iff.mpr hc, Check.text_eq_ok_iff.mpr hm]
  dsimp only
  split
  · next s hs =>
    exact absurd (Check.refusals_eq_nil_iff.mpr ⟨s, Check.text_eq_ok_iff.mp hs⟩) hrefused
  · rfl

end

/--
**A failure loses and invents nothing.**  A call gives an envelope exactly where no name of the
class is given, no argument is without a place, each of the three parameters is supplied with one
value, and these values are texts or encode texts; the envelope then has these texts, and the other
named arguments in their order as its detail.  Any other call is an error: of names that clash the
first one is reported before surplus arguments, these before missing ones, and of values that are no
texts those of the fault before `op`.
-/
theorem failure_answers (args : List Value) (named : Fields Value) (hn : named.keys.Nodup) :
    (∀ e, failure args named = .ok e ↔ ∃ op code message,
      Call.Binds args named op code message ∧ Check.Reads op e.op ∧ e.ok = false ∧ e.data = [] ∧
      e.warnings = [] ∧ e.remarks = none ∧ ∃ f, e.fault = some f ∧ Check.Reads code f.code ∧
      Check.Reads message f.message ∧ f.detail = Call.details named) ∧
    (∀ before k after, named.keys = before ++ k :: after → Call.Clashes args k →
      (∀ k' ∈ before, ¬ Call.Clashes args k') →
      failure args named = .error (.unbound (.clash k))) ∧
    ((∀ k ∈ named.keys, ¬ Call.Clashes args k) →
      (Call.parameters.length < args.length →
        failure args named = .error (.unbound (.surplus args.length))) ∧
      (args.length ≤ Call.parameters.length →
        (∃ k ∈ Call.parameters, Call.supplies args named k = []) →
        failure args named = .error (.unbound (.missing
          (Call.parameters.filter fun k => (Call.supplies args named k).isEmpty))))) ∧
    ∀ op code message, Call.Binds args named op code message →
      let ofFault := Check.refusals "code" code ++ Check.refusals "message" message
      (ofFault ≠ [] → failure args named = .error (.rejected ⟨Fault.name, ofFault⟩)) ∧
      (ofFault = [] → Check.refusals "op" op ≠ [] →
        failure args named = .error (.rejected ⟨name, Check.refusals "op" op⟩)) := by
  refine ⟨fun e => failure_eq_ok_iff hn, ?_, ?_, ?_⟩
  · intro before k after hkeys hk hfirst
    exact failure_of_bind_error (Call.bind_of_clash hkeys hfirst hk)
  · intro hno
    exact ⟨fun hmany => failure_of_bind_error (Call.bind_of_surplus hno hmany),
      fun hfew hmissing => failure_of_bind_error (Call.bind_of_missing hn hno hfew hmissing)⟩
  · intro op code message hbinds
    exact ⟨failure_of_fault_refusals hn hbinds, failure_of_op_refusals hn hbinds⟩

/-- Arguments of a call that gives one parameter by its place and two by their names. -/
def mixedNames : Fields Value :=
  [("field", .list [.null]), ("message", .text "no"), ("code", .bytes [0x45]), ("self", .int 7)]

theorem failure_answers_mixed :
    mixedNames.keys.Nodup ∧
    failure [.text "decode"] mixedNames =
      .ok (failed "decode" "E" "no" [("field", .list [.null]), ("self", .int 7)]) := by
  have hn : mixedNames.keys.Nodup := by decide
  have hcode : Utf8.decode [0x45] = .ok ['E'] := by cbv
  refine ⟨hn, ((failure_answers [.text "decode"] mixedNames hn).1 _).mpr ?_⟩
  exact ⟨.text "decode", .bytes [0x45], .text "no", ⟨by decide, by decide, rfl, rfl, rfl⟩,
    .text _, rfl, rfl, rfl, rfl, _, rfl, .bytes hcode, .text _, rfl⟩

/-- What is supplied need not be what the envelope has: bytes are taken for the text they encode. -/
theorem failure_of_bytes :
    failure [.bytes [0x61], .text "c", .text "m"] [] = .ok (failed "a" "c" "m" []) ∧
      Value.text "a" ≠ .bytes [0x61] := by
  refine ⟨by cbv, ?_⟩
  rintro ⟨⟩

end Envelope

end Nullary
