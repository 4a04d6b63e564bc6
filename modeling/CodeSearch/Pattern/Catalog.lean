import CodeSearch.Pattern.Rule

/-! # The catalog of patterns

Each pattern has rules for types, and some have rules for functions. The weights of a list of
rules add up to 1, so the weighted sum of the fits is the confidence.
-/

namespace CodeSearch.Pattern

def singletonRules : List Rule :=
  [⟨"static instance field", 0.4, hasStaticInstance⟩,
   ⟨"instance accessor", 0.35, hasInstanceAccessor⟩,
   ⟨"constructs own type", 0.25, constructsItself⟩]

def factoryRules : List Rule :=
  [⟨"factory naming", 0.3, factoryName⟩,
   ⟨"returns a constructed object", 0.4, returnsNewObject⟩,
   ⟨"several product types", 0.3, severalProducts⟩]

def builderRules : List Rule :=
  [⟨"fluent setters", 0.45, fluentSetters⟩,
   ⟨"build method constructs", 0.35, buildMethod⟩,
   ⟨"builder naming", 0.2, builderName⟩]

def observerRules : List Rule :=
  [⟨"observer collection", 0.3, observerField⟩,
   ⟨"subscribe method", 0.25, subscribeMethod⟩,
   ⟨"notify method", 0.2, notifyMethod⟩,
   ⟨"calls in a loop", 0.25, notifiesInLoop⟩]

def strategyRules : List Rule :=
  [⟨"strategy field", 0.35, strategyField⟩,
   ⟨"delegates through a field", 0.35, delegatesToField⟩,
   ⟨"strategy setter", 0.3, strategySetter⟩]

def decoratorTypeRules : List Rule :=
  [⟨"wrapped component field", 0.3, componentField⟩,
   ⟨"shares a base type", 0.2, hasBase⟩,
   ⟨"forwards the same operation", 0.35, forwardsSameOperation⟩,
   ⟨"decorator naming", 0.15, decoratorName⟩]

def decoratorFunctionRules : List Rule :=
  [⟨"defines an inner function", 0.4, definesInnerFunction⟩,
   ⟨"returns the inner function", 0.4, returnsInnerFunction⟩,
   ⟨"calls the wrapped callable", 0.2, callsWrappedParameter⟩]

def adapterRules : List Rule :=
  [⟨"adaptee field", 0.3, adapteeField⟩,
   ⟨"implements a target type", 0.2, hasBase⟩,
   ⟨"translates calls", 0.3, translatesCalls⟩,
   ⟨"adapter naming", 0.2, adapterName⟩]

def iteratorRules : List Rule :=
  [⟨"next method", 0.35, nextMethod⟩,
   ⟨"iterable protocol", 0.25, iterable⟩,
   ⟨"cursor field", 0.2, cursorField⟩,
   ⟨"end-of-sequence check", 0.2, nextBranches⟩]

def visitorRules : List Rule :=
  [⟨"visit methods", 0.35, visitMethods⟩,
   ⟨"visitor naming", 0.15, visitorName⟩,
   ⟨"accept dispatches to visit", 0.35, acceptDispatches⟩,
   ⟨"passes itself to the visitor", 0.15, passesItself⟩]

def commandRules : List Rule :=
  [⟨"execute method", 0.35, executeMethod⟩,
   ⟨"undo method", 0.25, undoMethod⟩,
   ⟨"command naming", 0.2, commandName⟩,
   ⟨"execute calls its receiver", 0.2, executeUsesReceiver⟩]

def typeRules : Pattern → List Rule
  | singleton => singletonRules
  | factory => factoryRules
  | builder => builderRules
  | observer => observerRules
  | strategy => strategyRules
  | decorator => decoratorTypeRules
  | adapter => adapterRules
  | iterator => iteratorRules
  | visitor => visitorRules
  | command => commandRules

def functionRules : Pattern → List Rule
  | factory => factoryRules
  | decorator => decoratorFunctionRules
  | _ => []

def rules (p : Pattern) : SymbolKind → List Rule
  | .type => p.typeRules
  | .function => p.functionRules
  | _ => []

/-- How well a subject fits a pattern, if the pattern has rules for it. -/
def score? (p : Pattern) (s : Subject) : Option Score :=
  match p.rules s.symbol.kind with
  | [] => none
  | rules =>
    let fits := rules.map fun rule => rule.weight * Score.clamp (rule.fit s) 0 1
    some (Score.clamp (Score.sum fits) 0 1)

end CodeSearch.Pattern
