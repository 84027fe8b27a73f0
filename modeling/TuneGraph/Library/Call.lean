import TuneGraph.Library.Tool

/-! # Calls of tools

A tool is called by its name with a mapping of arguments. Arguments that are left out take
their defaults.
-/

namespace TuneGraph.ToolRequest

/-- An argument that is a text. -/
def text? (arguments : Datum) (name : String) : Option String := (arguments.get name).text?

/-- An argument that says yes or no. -/
def flag (arguments : Datum) (name : String) (default : Bool) : Bool :=
  match arguments with
  | .mapping entries => ((Datum.find? name entries).map Datum.isTruthy).getD default
  | _ => default

/-- An argument of any kind. -/
def value (arguments : Datum) (name : String) (default : Datum) : Datum :=
  match arguments with
  | .mapping entries => (Datum.find? name entries).getD default
  | _ => default

/-- The request of a call, if there is a tool of that name and no argument that it needs is
missing. -/
def ofCall? (tool : String) (arguments : Datum) : Option ToolRequest :=
  match tool with
  | "blocks_import_score" =>
    (text? arguments "tune_json").map fun json =>
      .importScore json (arguments.get "name") (flag arguments "save" true)
  | "blocks_get_score" => (text? arguments "name").map .getScore
  | "blocks_list_scores" => some .listScores
  | "blocks_delete_score" => (text? arguments "name").map .deleteScore
  | "blocks_validate_score" => (text? arguments "name").map .validateScore
  | "blocks_compile_score" =>
    (text? arguments "name").map fun name =>
      .compileScore name ((text? arguments "output_name").getD "")
        (value arguments "repeat_count" (.integer 2))
  | "blocks_compile_inline" =>
    (text? arguments "tune_json").map fun json =>
      .compileInline json (((arguments.get "start_id").integer?).getD 0)
  | "blocks_describe_graph" =>
    (text? arguments "name").map fun name =>
      .describeGraph name (flag arguments "include_nodes" false)
  | _ => none

end TuneGraph.ToolRequest
