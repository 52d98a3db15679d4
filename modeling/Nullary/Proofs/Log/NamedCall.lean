import Nullary.Proofs.Log.Line

/-!
# Calls with a message and values

What a call of a logger writes that is made with nothing (`NamedCall.ofMessage`).  Of the values
under one name that of the call counts before the one that the logger was bound to
(`NamedCall.get?_fields_ofMessage`), and the call goes through unless a name is taken by a parameter
(`NamedCall.emitNamed_ofMessage`).
-/

namespace Nullary.NamedCall

open Fields

/-- A call of a logger that is made with nothing, with a message and values. -/
def ofMessage (bound : Fields Value) (method message : String) (own : Fields Value) : NamedCall :=
  ⟨[], bound, method, .text message, [], own⟩

/-- The names that a call with values has parameters for. -/
def parameters : List String := ["self", "event", "method_name"]

variable {bound own : Fields Value} {method message k : String}

theorem fields_ofMessage : (ofMessage bound method message own).fields =
    ((ofList bound).insertAll own).insert "event" (.text message) := rfl

/-- What is given with a call counts before what its logger was bound to. -/
theorem get?_fields_ofMessage (hbound : bound.keys.Nodup) (hown : own.keys.Nodup) :
    (ofMessage bound method message own).fields.get? k =
      if "event" = k then some (.text message) else (own.get? k).or (bound.get? k) := by
  rw [fields_ofMessage, get?_insert, get?_insertAll, ofList_of_nodup hbound, last?_eq_get? hown]

theorem loggable_fields_ofMessage (hbound : Event.Loggable bound) (hown : Event.Loggable own) :
    Event.Loggable (ofMessage bound method message own).fields := by
  refine Event.loggable_of_get? ?_ (fun k v hv => ?_) (fun k hk => ?_)
  · rw [fields_ofMessage, ofList_of_nodup hbound.nodup]
    exact nodup_keys_insert (nodup_keys_insertAll hbound.nodup _)
  · rw [get?_fields_ofMessage hbound.nodup hown.nodup] at hv
    split_ifs at hv
    · exact Option.some.inj hv ▸ .text _
    · obtain hv | ⟨-, hv⟩ := Option.or_eq_some_iff.mp hv
      · exact hown.get?_native hv
      · exact hbound.get?_native hv
  · rw [get?_fields_ofMessage hbound.nodup hown.nodup, if_neg, hown.get?_hidden hk,
      hbound.get?_hidden hk, Option.or_none]
    rintro rfl
    exact absurd hk (by decide)

/-! ### Names that are taken -/

theorem makingError?_ofMessage (h : "self" ∉ bound.keys) :
    (ofMessage bound method message own).makingError? = none := by
  have hbound : ArgumentError.repeated? "BoundLoggerLazyProxy.bind" ["self"] bound.keys = none :=
    ArgumentError.repeated?_eq_none fun k hk hself => h (List.mem_singleton.mp hself ▸ hk)
  have hmaking : ArgumentError.repeated? "wrap_logger" ["logger"] [] = none := rfl
  simp [makingError?, ofMessage, hmaking, hbound, has, Fields.get?, chosen?]

theorem called_ofMessage {m : Method} (hm : Method.ofText? method = some m)
    (h : ∀ k ∈ own.keys, k ∉ parameters) :
    (ofMessage bound method message own).called = .ok m := by
  have hcall : ArgumentError.repeated? ("BoundLogger." ++ m.name) ["self", "event"] own.keys =
      none :=
    ArgumentError.repeated?_eq_none fun k hk ht => h k hk (by simp_all [parameters])
  have hproxy : ArgumentError.repeated? "BoundLogger._proxy_to_logger" ["method_name"] own.keys =
      none :=
    ArgumentError.repeated?_eq_none fun k hk ht => h k hk (by simp_all [parameters])
  simp [called, ofMessage, chosen?, Fields.get?, hm, takenBy?, hcall, hproxy]

/-! ### What is written -/

variable {l : Logging} {context : Context} {timestamp logger : String} {m : Method}

/-- A call that goes through writes one record. -/
theorem emitNamed_ofMessage (hm : Method.ofText? method = some m)
    (hown : ∀ k ∈ own.keys, k ∉ parameters)
    (hsource : ((ofMessage bound method message own).fields.fill context).get? Event.sourceName =
      none) :
    l.emitNamed context timestamp logger (ofMessage bound method message own) =
      .ok (l.emit ⟨logger, m.level, none,
        Event.complete context (Logging.origin timestamp logger m.level)
          (ofMessage bound method message own).fields⟩) := by
  have hchain : (ofMessage bound method message own).chain = .usual := rfl
  have hname : Event.loggerName context (LoggerName.shown logger)
      (ofMessage bound method message own).fields = .ok (LoggerName.shown logger) := by
    rw [Event.loggerName, hsource]
  rw [Logging.emitNamed, called_ofMessage hm hown, hchain]
  simp [Logging.namedRecord, hname, Except.map, Except.mapError, Logging.origin]

end Nullary.NamedCall
