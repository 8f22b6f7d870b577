import Stencil.Engine

/-!
# Sessions

A session puts requests to one engine, one after the other.  Only registering a
macro changes the engine.
-/

namespace Stencil

/-- A request to an engine. -/
inductive Request where
  | register (added : Macro)
  | names
  | settings
  | check (template : String)
  | resolve (template : String) (data : Fields)
  | batch (template : String) (records : List Fields)
  deriving Inhabited

/-- The reply to a request. -/
inductive Reply where
  /-- The number of macros after one was registered. -/
  | registered (macroCount : Nat)
  | names (names : List String)
  | settings (settings : Settings)
  | checked (result : Except TemplateError Program)
  | resolved (result : Except TemplateError String)
  | batch (result : Except TemplateError (List (Except TemplateError String)))
  deriving Inhabited

namespace Engine

def afterRequest (engine : Engine) : Request → Engine
  | .register added => engine.register added
  | _ => engine

def reply (engine : Engine) (request : Request) : Reply :=
  match request with
  | .register added => .registered (engine.register added).macroNames.length
  | .names => .names engine.macroNames
  | .settings => .settings engine.settings
  | .check template => .checked (engine.check template).answer
  | .resolve template data => .resolved (engine.resolve template data).answer
  | .batch template records =>
      .batch (engine.resolveBatch template records).answer

def replies (engine : Engine) : List Request → List Reply
  | [] => []
  | request :: requests =>
      engine.reply request :: (engine.afterRequest request).replies requests

end Engine

end Stencil
