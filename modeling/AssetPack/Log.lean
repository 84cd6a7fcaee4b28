namespace AssetPack

/-! Messages, and computations which leave messages behind. -/

inductive Level where
  | error | warn | info | debug | trace
  deriving DecidableEq, Repr

def Level.label : Level → String
  | error => "ERROR"
  | warn => "WARN"
  | info => "INFO"
  | debug => "DEBUG"
  | trace => "TRACE"

/-- The least verbosity which shows the level; nothing is shown at verbosity 0. -/
def Level.verbosity : Level → Nat
  | error => 1
  | warn => 2
  | info => 3
  | debug => 4
  | trace => 5

inductive Origin where
  | manifest | tokens | sections | package | store | group | shaderContext
  | tool | settings | textureImport | shaderImport | audioImport
  deriving DecidableEq, Repr

/-- The name under which a part reports. -/
def Origin.label : Origin → String
  | manifest => "engine::manifest"
  | tokens => "engine::manifest::lexer"
  | sections => "engine::manifest::parser"
  | package => "engine::resources::package"
  | store => "engine::resources::asset_manager"
  | group => "engine::resources::asset_group"
  | shaderContext => "engine::resources::shader_context"
  | tool => "import_asset"
  | settings => "import_asset::settings"
  | textureImport => "import_asset::importers::texture"
  | shaderImport => "import_asset::importers::shader"
  | audioImport => "import_asset::importers::audio"

structure Message where
  level : Level
  origin : Origin
  text : String
  deriving DecidableEq, Repr

/-- A value, and the messages left on the way to it, the first one first. -/
structure Logged (α : Type) where
  log : List Message
  value : α
  deriving DecidableEq, Repr

namespace Logged

variable {α β : Type}

def pure (a : α) : Logged α := ⟨[], a⟩

def bind (x : Logged α) (f : α → Logged β) : Logged β :=
  ⟨x.log ++ (f x.value).log, (f x.value).value⟩

instance : Monad Logged where
  pure := Logged.pure
  bind := Logged.bind

@[simp] theorem log_pure (a : α) : (Pure.pure a : Logged α).log = [] := rfl
@[simp] theorem value_pure (a : α) : (Pure.pure a : Logged α).value = a := rfl

@[simp] theorem log_bind (x : Logged α) (f : α → Logged β) :
    (x >>= f).log = x.log ++ (f x.value).log := rfl

@[simp] theorem value_bind (x : Logged α) (f : α → Logged β) :
    (x >>= f).value = (f x.value).value := rfl

@[ext] theorem ext {x y : Logged α} (log : x.log = y.log) (value : x.value = y.value) : x = y := by
  cases x; cases y; simp_all

instance : LawfulMonad Logged := LawfulMonad.mk' Logged
  (fun x => by ext1 <;> simp [Functor.map, Logged.bind, Logged.pure])
  (fun a f => by ext1 <;> simp)
  (fun x f g => by ext1 <;> simp)

end Logged

def report (level : Level) (origin : Origin) (text : String) : Logged Unit :=
  ⟨[⟨level, origin, text⟩], ()⟩

/-- A computation which leaves messages and may fail. A failure keeps the messages before it. -/
abbrev Attempt (ε α : Type) := ExceptT ε Logged α

def fail {ε α : Type} (origin : Origin) (text : String) (error : ε) : Attempt ε α := do
  report .error origin text
  throw error

@[simp] theorem log_report (level : Level) (origin : Origin) (text : String) :
    (report level origin text).log = [⟨level, origin, text⟩] := rfl

@[simp] theorem run_fail {ε α : Type} (origin : Origin) (text : String) (error : ε) :
    (fail origin text error : Attempt ε α).run = ⟨[⟨.error, origin, text⟩], .error error⟩ := rfl

end AssetPack
