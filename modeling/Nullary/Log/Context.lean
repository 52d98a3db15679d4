import Nullary.Value

/-!
# The log context

Variables that are bound for a while and show up in every record.  Binding the ellipsis unbinds.
`Context.bind` is the context within a piece of work that binds variables of its own, and
`Context.restore` is the context after it.
-/

namespace Nullary

/-- Variables by their names. -/
abbrev Context := Fields Value

namespace Context

/-- Binds a variable; the ellipsis unbinds it. -/
def bindOne (name : String) (v : Value) (c : Context) : Context :=
  match v with
  | .ellipsis => c.erase name
  | v => c.insert name v

/-- Binds variables one after another. -/
def bind (vs : Fields Value) (c : Context) : Context :=
  vs.foldl (fun c e => bindOne e.1 e.2 c) c

/-- Forgets the variables with one of some names. -/
def unbind (names : List String) (c : Context) : Context :=
  c.filter fun e => !names.contains e.1

/-- The variables with one of some names. -/
def select (names : List String) (c : Context) : Context :=
  c.filter fun e => names.contains e.1

/-- The context after work that bound `vs` on top of `c` and left `inner` behind. -/
def restore (vs : Fields Value) (c inner : Context) : Context :=
  (inner.unbind vs.keys).bind (c.select vs.keys)

end Context

end Nullary
