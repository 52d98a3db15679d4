import Nullary.Proofs.Log.Context
import Nullary.Proofs.Session.Runs

/-!
# The context over a session

Only the actions that are there to change variables change them (`Session.Leaves.get?_context`): a
call of the service binds names of its own while it runs and leaves behind what it found, however it
ends.  So of all that was done in a session only these actions count for its context.
Main statement: `Session.context_after`.
-/

namespace Nullary

open Fields

/-- What an action is there to do to the context. -/
def Action.onContext (a : Action) (c : Context) : Context :=
  match a with
  | bind vs => c.bind vs
  | unbind names => c.unbind names
  | clear => []
  | _ => c

theorem Action.onContext_of_binds_eq_false {a : Action} (h : a.binds = false) (c : Context) :
    a.onContext c = c := by
  cases a with
  | bind vs => cases h
  | unbind names => cases h
  | clear => cases h
  | _ => rfl

/-- What comes of an action depends on the variables alone, not on their order. -/
theorem Action.onContext_congr {c c' : Context} (h : ∀ k, get? k c = get? k c') (a : Action)
    (k : String) : get? k (a.onContext c) = get? k (a.onContext c') := by
  cases a with
  | bind vs => exact Context.bind_congr h vs
  | unbind names => rw [onContext, onContext, Context.get?_unbind, Context.get?_unbind, h]
  | clear => rfl
  | _ => exact h k

namespace Session

variable {s s' : Session} {a : Action}

/-! ### One step -/

theorem Leaves.sound_context (h : Leaves s a s') (hs : s.context.Sound) : s'.context.Sound := by
  cases h with
  | called r last hc => exact (hs.bind _).restore _ _
  | bound vs => exact hs.bind vs
  | unbound names => exact hs.filter _
  | cleared => exact Context.sound_nil
  | _ => exact hs

theorem Leaves.get?_context (h : Leaves s a s') (hs : s.context.Sound) (k : String) :
    get? k s'.context = get? k (a.onContext s.context) := by
  cases h with
  | idle hset hb => rw [Action.onContext_of_binds_eq_false hb]
  | world w hset hb => rw [Action.onContext_of_binds_eq_false hb]
  | met logger hset hb => rw [Action.onContext_of_binds_eq_false hb]
  | called r last hc => exact Context.get?_restore hs _
  | _ => rfl

/-! ### Any number of steps -/

theorem sound_context_after (w : World) (terminal : Bool) (moves : List Move) :
    ((start w terminal).after moves).context.Sound := by
  induction moves using List.reverseRecOn with
  | nil => exact Context.sound_nil
  | append_singleton moves m ih =>
    rw [after_concat]
    exact (leaves_step _ _ _).sound_context ih

theorem get?_context_after (w : World) (terminal : Bool) (moves : List Move) (k : String) :
    get? k ((start w terminal).after moves).context =
      get? k ((start w terminal).after (moves.filter fun m => m.action.binds)).context := by
  induction moves using List.reverseRecOn generalizing k with
  | nil => rfl
  | append_singleton moves m ih =>
    have hstep := (leaves_step m.clock ((start w terminal).after moves) m.action).get?_context
      (sound_context_after w terminal moves) k
    rw [after_concat, List.filter_append, play, hstep]
    cases hb : m.action.binds with
    | false =>
      have hdropped : [m].filter (fun m => m.action.binds) = [] := by simp [hb]
      rw [hdropped, List.append_nil, Action.onContext_of_binds_eq_false hb, ih]
    | true =>
      have hkept : [m].filter (fun m => m.action.binds) = [m] := by simp [hb]
      rw [hkept, after_concat, play,
        (leaves_step _ _ _).get?_context (sound_context_after w terminal _)]
      exact Action.onContext_congr ih m.action k

/--
**The context of a session.**  The variables at any point of a session, each of them bound once, are
those that the actions alone would have left which bind, unbind or clear; and a call of the service,
whatever comes of it and whatever is bound, leaves just the variables that it found.
-/
theorem context_after (w : World) (terminal : Bool) (moves : List Move) :
    let s := (start w terminal).after moves
    s.context.keys.Nodup ∧
      s.context.Perm ((start w terminal).after (moves.filter fun m => m.action.binds)).context ∧
      ∀ clock r, (s.step clock (.request r)).session.context.Perm s.context := by
  intro s
  have hs : s.context.Sound := sound_context_after w terminal moves
  refine ⟨hs.nodup, ?_, ?_⟩
  · exact perm_of_get?_eq hs.nodup (sound_context_after w terminal _).nodup
      (get?_context_after w terminal moves)
  · intro clock r
    have hleaves := leaves_step clock s (.request r)
    exact perm_of_get?_eq (hleaves.sound_context hs).nodup hs.nodup (hleaves.get?_context hs)

end Session

end Nullary
