import TypeAtlas.Event
import TypeAtlas.Schema.Survey

namespace TypeAtlas.Schema

open Dump

def Visit.events : Visit → List Event
  | .undeclared name => [.elementUndeclared name]
  | .declared _ findings _ => findings.filterMap FieldFinding.event?

namespace Survey

def enumEvents (survey : Survey) : List Event :=
  survey.enums.flatMap fun (d, members) =>
    members.filterMap EnumMember.event? ++
      if (Enum.ofBody? d.base d.body members).isNone then [.enumEmpty d.name] else []

def structEvents (survey : Survey) : List Event :=
  survey.structs.flatMap fun (d, findings) =>
    findings.filterMap FieldFinding.event? ++
      if (findings.filterMap FieldFinding.field?).isEmpty then [.structEmpty d.name] else []

def templateEvents (survey : Survey) : List Event :=
  survey.templates.flatMap fun (_, flattening) => flattening.events

end Survey

def Build.events (build : Build) : List Event :=
  build.survey.findings.filterMap Finding.event? ++
    .indexed build.survey.index.size :: build.survey.enumEvents ++
    .counted .enums build.enums.size :: build.survey.structEvents ++
    .counted .structs build.structs.size :: build.survey.templateEvents ++
    .counted .templates build.templates.size ::
    (build.ancestries.entries.filterMap fun (name, walk) => walk.stop.event? .template name) ++
    .counted .chains build.inheritance.size ::
    build.visits.flatMap Visit.events ++ [.counted .embedded build.embedded.size]

end TypeAtlas.Schema
