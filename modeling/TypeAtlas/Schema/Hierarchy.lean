import TypeAtlas.Dump.Field
import TypeAtlas.Dump.Index
import TypeAtlas.Schema.Basic

namespace TypeAtlas.Schema

open Dump

-- The most types one walk goes through.
def depthLimit : Nat := 64

-- Why a walk ends.
inductive Stop
  -- No further base counts.
  | top
  | cycle (repeated : String)
  | tooDeep
  deriving DecidableEq, Repr

structure Walk (α : Type) where
  steps : List α
  stop : Stop

-- The base that a walk goes on to.
def nextBase? (rules : Rules) (declaration : Declaration) : Option String :=
  declaration.base.filter fun base => !rules.isTerminalRoot base

-- The declarations from a class on upward, at most so many, with the names `below` behind it.
def baseWalkFrom (rules : Rules) (index : Index) : Nat → List String → String → Walk Declaration
  | limit, below, name =>
    if below.contains name then ⟨[], .cycle name⟩
    else
      match limit with
      | 0 => ⟨[], .tooDeep⟩
      | limit + 1 =>
        match index.get? .classType name with
        | none => ⟨[], .top⟩
        | some declaration =>
          match nextBase? rules declaration with
          | none => ⟨[declaration], .top⟩
          | some base =>
            let above := baseWalkFrom rules index limit (name :: below) base
            ⟨declaration :: above.steps, above.stop⟩

-- The declarations from a class up to the last below its terminal root.
def baseWalk (rules : Rules) (index : Index) (name : String) : Walk Declaration :=
  baseWalkFrom rules index depthLimit [] name

-- The base of a template, if it is a template too.
def parent? (templates : NameMap Template) (name : String) : Option String :=
  ((templates.get? name).bind Template.base).filter templates.contains

-- Puts the ancestors of a template, at most so many, before a chain that begins with it.
def ancestryFrom (templates : NameMap Template) : Nat → List String → String → Walk String
  | limit, chain, name =>
    match parent? templates name with
    | none => ⟨chain, .top⟩
    | some parent =>
      if chain.contains parent then ⟨chain, .cycle parent⟩
      else
        match limit with
        | 0 => ⟨chain, .tooDeep⟩
        | limit + 1 => ancestryFrom templates limit (parent :: chain) parent

-- The ancestors of a template from the root on, and the template itself.
def ancestry (templates : NameMap Template) (name : String) : Walk String :=
  ancestryFrom templates (depthLimit - 1) [name] name

-- The fields that a class declares itself.
structure Layer where
  declaration : Declaration
  findings : List FieldFinding

def Layer.fields (layer : Layer) : List RawField :=
  layer.findings.filterMap FieldFinding.field?

-- A class with the classes it derives from, the root first.
structure Flattening where
  name : String
  stop : Stop
  layers : List Layer

def flatten (rules : Rules) (index : Index) (name : String) : Flattening :=
  let walk := baseWalk rules index name
  ⟨name, walk.stop,
    walk.steps.reverse.map fun d => ⟨d, fieldFindings rules .classType d.body⟩⟩

-- Keeps the last field of each name, at its place.
def keepLast : List RawField → List RawField
  | [] => []
  | field :: rest =>
    if rest.any fun other => other.name == field.name then keepLast rest
    else field :: keepLast rest

-- The inherited fields before the own ones. A field that is declared again further down hides the
-- inherited one.
def Flattening.fields (flattening : Flattening) : List RawField :=
  keepLast (flattening.layers.flatMap Layer.fields)

def collectFields (rules : Rules) (index : Index) (name : String) : List RawField :=
  (flatten rules index name).fields

end TypeAtlas.Schema
