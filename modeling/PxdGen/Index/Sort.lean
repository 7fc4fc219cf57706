/-! # Sorts of objects

The objects of a unit are of sorts, and a sort tells by name what its objects have: methods, which
are called on an object, functions, which need none, and properties. Some sorts take over what
another one has.
-/

namespace PxdGen.Index

structure Members where
  methods : List String := []
  functions : List String := []
  /-- functions that are called on the sort itself -/
  makers : List String := []
  properties : List String := []
  /-- properties that are found out once and kept -/
  cached : List String := []
deriving Repr

private def cursorMembers : Members where
  methods := ["is_definition", "is_static_method", "get_definition", "get_usr", "get_arguments",
    "get_children", "get_tokens", "get_brief_comment_text", "get_raw_comment_text",
    "get_parsed_comment"]
  functions := ["from_location", "from_result", "from_cursor_result"]
  properties := ["kind", "spelling", "displayname", "location", "extent", "type", "canonical",
    "result_type", "underlying_typedef_type", "enum_type", "enum_value", "objc_type_encoding",
    "hash", "semantic_parent", "lexical_parent", "translation_unit"]

private def typeMembers : Members where
  methods := ["argument_types", "get_canonical", "is_const_qualified", "is_volatile_qualified",
    "is_restrict_qualified", "is_function_variadic", "is_pod", "get_pointee", "get_declaration",
    "get_result", "get_array_element_type", "get_array_size"]
  functions := ["from_result"]
  properties := ["kind", "element_type", "element_count", "translation_unit"]

private def cursorKindMembers : Members where
  methods := ["from_param", "is_declaration", "is_reference", "is_expression", "is_statement",
    "is_attribute", "is_invalid", "is_translation_unit", "is_preprocessing", "is_unexposed"]
  functions := ["from_id", "get_all_kinds"]
  properties := ["name"]

private def diagnosticMembers : Members where
  methods := ["from_param"]
  properties := ["severity", "location", "spelling", "ranges", "fixits", "category_number",
    "category_name", "option", "disable_option"]

private def unitMembers : Members where
  methods := ["get_includes", "get_file", "get_location", "get_extent", "reparse", "save",
    "codeComplete", "get_tokens"]
  makers := ["from_source", "from_ast_file"]
  properties := ["cursor", "spelling", "diagnostics"]

private def chunkMembers : Members where
  methods := ["isKindOptional", "isKindTypedText", "isKindPlaceHolder", "isKindInformative",
    "isKindResultType"]
  cached := ["spelling", "kind", "string"]

def argumentsSort : String := "Type.argument_types.<locals>.ArgumentsIterator"

/-- What the objects of a sort have of their own. -/
def membersOf : String → Members
  | "Cursor" => cursorMembers
  | "Type" => typeMembers
  | "CursorKind" => cursorKindMembers
  | "TypeKind" =>
    { methods := ["from_param"], functions := ["from_id"], properties := ["name", "spelling"] }
  | "CommentKind" =>
    { methods := ["from_param"], functions := ["from_id"], properties := ["name"] }
  | "TokenKind" => { functions := ["from_value", "register"] }
  | "SourceLocation" =>
    { methods := ["_get_instantiation"], functions := ["from_position", "from_offset"],
      properties := ["file", "line", "column", "offset"] }
  | "SourceRange" => { functions := ["from_locations"], properties := ["start", "end"] }
  | "Diagnostic" => diagnosticMembers
  | "TokenGroup" => { functions := ["get_tokens"] }
  | "Token" => { properties := ["spelling", "kind", "location", "extent", "cursor"] }
  | "Comment" => { methods := ["children", "text"], properties := ["kind"] }
  | "ClangObject" => { methods := ["from_param"] }
  | "TranslationUnit" => unitMembers
  | "Index" => { methods := ["read", "parse"], functions := ["create"] }
  | "File" =>
    { functions := ["from_name", "from_cursor_result"], properties := ["name", "time"] }
  | "FileInclusion" => { properties := ["is_input_file"] }
  | "CompletionChunk" => chunkMembers
  | "CompletionString" =>
    { properties := ["priority", "availability", "briefComment"], cached := ["num_chunks"] }
  | "CodeCompletionResult" => { properties := ["kind", "string"] }
  | "CodeCompletionResults" =>
    { methods := ["from_param"], properties := ["results", "diagnostics"] }
  | "CompilationDatabase" =>
    { methods := ["getCompileCommands"], functions := ["from_result", "fromDirectory"] }
  | "CompileCommands" => { functions := ["from_result"] }
  | "CompileCommand" => { properties := ["directory", "arguments"] }
  | "_CXString" => { functions := ["from_result"] }
  | "Config" =>
    { methods := ["get_filename", "get_cindex_library", "function_exists"],
      functions := ["set_library_path", "set_library_file", "set_compatibility_check"],
      cached := ["lib"] }
  | "Sequence" => { methods := ["index", "count"] }
  | _ => {}

def sortNames : List String :=
  ["CCRStructure", "_CXString", "_CXUnsavedFile", "CachedProperty", "ClangObject",
    "CodeCompletionResult", "CodeCompletionResults", "Comment", "CommentKind",
    "CompilationDatabase", "CompilationDatabaseError", "CompileCommand", "CompileCommands",
    "CompletionChunk", "CompletionString", "Config", "Cursor", "CursorKind", "Diagnostic", "File",
    "FileInclusion", "FixIt", "Index", "LibclangError", "SourceLocation", "SourceRange", "Token",
    "TokenGroup", "TokenKind", "TranslationUnit", "TranslationUnitLoadError",
    "TranslationUnitSaveError", "Type", "TypeKind"]

def baseOf? (sort : String) : Option String :=
  if ["TranslationUnit", "Index", "File", "CompletionString", "CodeCompletionResults",
      "CompilationDatabase"].contains sort then some "ClangObject"
  else if sort == argumentsSort then some "Sequence"
  else none

/-- A sort among those that a sort is made of whose members satisfy a condition. -/
def ownerOf? (has : Members → Bool) (sort : String) : Option String :=
  if has (membersOf sort) then some sort
  else (baseOf? sort).filter fun base => has (membersOf base)

def plainObject (sort : String) : String :=
  "<cwrap.frontends.clang.clang.cindex." ++ sort ++ " object>"

def sortText (sort : String) : String :=
  "<class 'cwrap.frontends.clang.clang.cindex." ++ sort ++ "'>"

/-- How a method is shown that belongs to something. -/
def boundText (owner name whole : String) : String :=
  "<bound method " ++ owner ++ "." ++ name ++ " of " ++ whole ++ ">"

def memberText? (sort name : String) (whole : String) : Option String :=
  match ownerOf? (·.methods.contains name) sort, ownerOf? (·.functions.contains name) sort,
      ownerOf? (·.makers.contains name) sort with
  | some owner, _, _ => some (boundText owner name whole)
  | none, some owner, _ => some ("<function " ++ owner ++ "." ++ name ++ ">")
  | none, none, some owner => some (boundText owner name (sortText sort))
  | none, none, none => none

def sortMemberText? (sort name : String) : Option String :=
  match ownerOf? (fun m => m.methods.contains name || m.functions.contains name) sort with
  | some owner => some ("<function " ++ owner ++ "." ++ name ++ ">")
  | none =>
    if (ownerOf? (·.makers.contains name) sort).isSome then
      some (boundText sort name (sortText sort))
    else if (ownerOf? (·.properties.contains name) sort).isSome then some "<property object>"
    else if (ownerOf? (·.cached.contains name) sort).isSome then some (plainObject "CachedProperty")
    else none

end PxdGen.Index
