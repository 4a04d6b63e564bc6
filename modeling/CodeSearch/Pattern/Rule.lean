import CodeSearch.Pattern.Subject

/-! # Pattern rules

A rule looks at one trait of a subject and tells how well it fits, between 0 and 1.
-/

namespace CodeSearch.Pattern

open Syntax Subject

/-- A trait that counts for a pattern with a weight. -/
structure Rule where
  name : String
  weight : Score
  fit : Subject → Score

/-- Complete fit, or none. -/
def fitIf (condition : Bool) : Score :=
  if condition then 1 else 0

/-! ## Traits of shapes -/

/-- Whether a function returns its receiver, or ends with it. -/
def returnsSelf (shape : Shape) : Bool :=
  let explicit := shape.any fun n =>
    n.kind == .returning && (shape.childrenOf n).any (·.kind == .selfRef)
  let last? : Option ShapeNode := do
    let root ← shape.root?
    let block ← ((shape.childrenOf root).filter (·.kind == .block)).getLast?
    (shape.childrenOf block).getLast?
  explicit || last?.any (·.kind == .selfRef)

def assignsSelf (shape : Shape) : Bool :=
  shape.any fun n => n.kind == .assign && n.onSelf

/-- The nodes of a kind with the nodes below them, themselves first. -/
def subtreesOf (shape : Shape) (kind : NodeKind) : List (List ShapeNode) :=
  (shape.nodes.zipIdx.filter (·.1.kind == kind)).map fun (_, i) =>
    (shape.descendants i).filterMap shape.node?

/-- Whether something is made below a return. -/
def returnsConstruct (shape : Shape) : Bool :=
  (subtreesOf shape .returning).any fun nodes => nodes.any (·.kind == .construct)

/-- Whether something is called inside a loop. -/
def loopsOverCall (shape : Shape) : Bool :=
  (subtreesOf shape .loop).any fun nodes => (nodes.drop 1).any (·.kind == .call)

/-- The types that are made. -/
def constructed (shape : Shape) : List String :=
  (shape.nodes.filter (·.kind == .construct)).filterMap (·.label)

def fieldCalls (shape : Shape) : List String :=
  (shape.nodes.filter fun n => n.kind == .call && n.viaField).filterMap (·.label)

/-- The calls of something whose name begins with visit. -/
def visitCalls (shape : Shape) : List ShapeNode :=
  shape.nodes.filter fun n =>
    n.kind == .call && n.label.any fun label => Text.startsWith (bareLetters label) "visit"

/-! ## Words -/

def instanceWords : List String := ["instance", "shared", "singleton"]
def accessorWords : List String := ["getinstance", "instance", "shared", "global", "default"]
def factoryWords : List String := ["create", "make", "factory"]
def buildWords : List String := ["build", "finish", "construct"]
def observerFields : List String :=
  ["observer", "listener", "subscriber", "handler", "callback", "watcher"]
def subscribeWords : List String :=
  ["subscribe", "attach", "addlistener", "addobserver", "register", "addhandler"]
def notifyWords : List String := ["notify", "emit", "publish", "dispatch", "fire", "broadcast"]
def strategyFields : List String := ["strategy", "policy", "algorithm", "behavior", "behaviour"]
def componentFields : List String := ["wrapped", "component", "inner", "delegate", "decorated"]
def adapteeFields : List String :=
  ["adaptee", "adapted", "wrapped", "client", "service", "legacy", "backend", "inner"]
def nextWords : List String := ["next", "hasnext", "movenext"]
def iterWords : List String := ["iter", "iterator"]
def cursorFields : List String := ["index", "idx", "pos", "cursor", "current", "offset"]
def executeWords : List String := ["execute", "run", "call", "perform", "invoke", "apply"]
def undoWords : List String := ["undo", "revert", "rollback"]
def commandNames : List String := ["command", "action", "task", "job"]

/-- Whether some method bears one of the names. -/
def hasMethod (s : Subject) (names : List String) : Bool :=
  s.methods.any fun m => names.contains (bareLetters m.name)

/-! ## Singleton -/

def hasStaticInstance (s : Subject) : Score :=
  fitIf (s.staticFields.any (holdsAny · instanceWords))

def hasInstanceAccessor (s : Subject) : Score :=
  fitIf (hasMethod s (accessorWords ++ accessorWords.map ("get" ++ ·)))

def constructsItself (s : Subject) : Score :=
  let own := s.symbol.name
  fitIf (s.shapes.any fun shape =>
    (constructed shape).any (fun type => type == own || type == "Self" || type == "cls") ||
      shape.any fun n => n.kind == .call && n.label == some "cls")

/-! ## Factory -/

def factoryName (s : Subject) : Score :=
  fitIf (holdsAny s.name factoryWords ||
    s.methods.any fun m => holdsAny (bareLetters m.name) factoryWords)

def returnsNewObject (s : Subject) : Score :=
  fitIf (s.shapes.any returnsConstruct)

def severalProducts (s : Subject) : Score :=
  let products := (s.shapes.flatMap constructed).filter fun type =>
    type != s.symbol.name && type != "Self"
  fitIf (2 ≤ products.eraseDups.length)

/-! ## Builder -/

def fluentSetters (s : Subject) : Score :=
  match s.methodShapes.countP fun (_, shape) => returnsSelf shape && assignsSelf shape with
  | 0 => 0
  | 1 => 0.45
  | _ => 1

def buildMethod (s : Subject) : Score :=
  fitIf ((s.methodNamed? buildWords).any fun (_, shape) => !(constructed shape).isEmpty)

def builderName (s : Subject) : Score :=
  fitIf (Text.endsWith s.name "builder")

/-! ## Observer -/

def observerField (s : Subject) : Score :=
  fitIf (s.hasField observerFields)

def subscribeMethod (s : Subject) : Score :=
  fitIf (s.methodNamed? subscribeWords).isSome

def notifyMethod (s : Subject) : Score :=
  fitIf (s.methodNamed? notifyWords).isSome

def notifiesInLoop (s : Subject) : Score :=
  fitIf (s.methodShapes.any fun (_, shape) => loopsOverCall shape)

/-! ## Strategy -/

def strategyField (s : Subject) : Score :=
  fitIf (s.hasField strategyFields)

def delegatesToField (s : Subject) : Score :=
  fitIf (s.methodShapes.any fun (_, shape) => !(fieldCalls shape).isEmpty)

def strategySetter (s : Subject) : Score :=
  fitIf (s.methodShapes.any fun (name, shape) =>
    Text.startsWith name "set" && shape.any fun n =>
      n.kind == .assign && n.onSelf &&
        n.label.any fun label => holdsAny (Text.lower label) strategyFields)

/-! ## Decorator -/

def componentField (s : Subject) : Score :=
  fitIf (s.hasField componentFields)

def hasBase (s : Subject) : Score :=
  fitIf !s.bases.isEmpty

def forwardsSameOperation (s : Subject) : Score :=
  fitIf (s.methodShapes.any fun (name, shape) =>
    (fieldCalls shape).any fun callee => bareLetters callee == bareLetters name)

def decoratorName (s : Subject) : Score :=
  fitIf (holdsAny s.name ["decorator", "wrapper"])

def definesInnerFunction (s : Subject) : Score :=
  fitIf (s.symbol.shape.any fun shape =>
    (shape.nodes.drop 1).any fun n => n.kind == .function || n.kind == .lambda)

def returnsInnerFunction (s : Subject) : Score :=
  fitIf (s.symbol.shape.any fun shape =>
    let inner := ((shape.nodes.drop 1).filter (·.kind == .function)).filterMap (·.label)
    shape.any fun n =>
      n.kind == .returning &&
        (n.label.any inner.contains || (shape.childrenOf n).any (·.kind == .lambda)))

def callsWrappedParameter (s : Subject) : Score :=
  fitIf (s.symbol.shape.any fun shape =>
    let parameters := (shape.nodes.filter fun n => n.kind == .parameter && n.depth ≤ 2).filterMap
      (·.label)
    shape.any fun n => n.kind == .call && n.label.any parameters.contains)

/-! ## Adapter -/

def adapteeField (s : Subject) : Score :=
  fitIf (s.hasField adapteeFields)

def translatesCalls (s : Subject) : Score :=
  fitIf (s.methodShapes.any fun (name, shape) =>
    (fieldCalls shape).any fun callee => bareLetters callee != bareLetters name)

def adapterName (s : Subject) : Score :=
  fitIf (holdsAny s.name ["adapter", "wrapper"])

/-! ## Iterator -/

def nextMethod (s : Subject) : Score :=
  fitIf (hasMethod s nextWords)

def iterable (s : Subject) : Score :=
  fitIf (hasMethod s iterWords ||
    s.bases.any fun base => holdsAny (Text.lower base) ["iterator", "iterable"])

def cursorField (s : Subject) : Score :=
  fitIf (s.hasField cursorFields)

def nextBranches (s : Subject) : Score :=
  fitIf (s.methodShapes.any fun (name, shape) =>
    nextWords.contains (bareLetters name) && shape.any (·.kind == .branch))

/-! ## Visitor -/

def visitMethods (s : Subject) : Score :=
  match s.methods.countP fun m => Text.startsWith (bareLetters m.name) "visit" with
  | 0 => 0
  | 1 => 0.5
  | _ => 1

def visitorName (s : Subject) : Score :=
  fitIf (Text.contains s.name "visitor")

def acceptDispatches (s : Subject) : Score :=
  fitIf (s.methodShapes.any fun (name, shape) =>
    Text.startsWith name "accept" && !(visitCalls shape).isEmpty)

def passesItself (s : Subject) : Score :=
  fitIf (s.methodShapes.any fun (_, shape) =>
    (visitCalls shape).any fun call => (shape.childrenOf call).any (·.kind == .selfRef))

/-! ## Command -/

def executeMethod (s : Subject) : Score :=
  fitIf (hasMethod s executeWords)

def undoMethod (s : Subject) : Score :=
  fitIf (hasMethod s undoWords)

def commandName (s : Subject) : Score :=
  fitIf (holdsAny s.name commandNames)

def executeUsesReceiver (s : Subject) : Score :=
  fitIf (s.methodShapes.any fun (name, shape) =>
    executeWords.contains (bareLetters name) && !(fieldCalls shape).isEmpty)

end CodeSearch.Pattern
