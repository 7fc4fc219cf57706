import PxdGen.Index.Object
/-! # Attributes

The attributes of objects, by the names under which they are asked for.
-/

namespace PxdGen.Index

/-- A cursor with its unit, which another object has to know for that. -/
def attached (isAttached : Bool) (fault : Fault) (i : Nat) : Except Fault Object :=
  if isAttached then .ok (.cursor (.numbered i) true) else .error fault

/-- A cursor that another one leads to. -/
def Holdings.relative (h : Holdings) (function : String) (isAttached : Bool) (i : Option Nat) :
    Except Fault Object :=
  h.callCursor function i .nothing (attached isAttached .missingField)

/-- The canonical cursor of a cursor is itself unless another one is said to be. -/
def Holdings.canonical (h : Holdings) (c : Cursor) (isAttached : Bool) : Except Fault Object :=
  let found : Option Cursor := match c, (h.tree.cursor c).canonical with
    | .null, _ => none
    | _, some i => some (.numbered i)
    | c, none => some c
  h.callCursor "clang_getCanonicalCursor" found .nothing fun c =>
    if isAttached then .ok (.cursor c true) else .error .missingField

/-- A type that a cursor leads to, which needs to know its unit for that. -/
def Holdings.typeOf (h : Holdings) (function : String) (isAttached : Bool) (t : TypeRef) :
    Except Fault TypeRef :=
  h.call function (if isAttached then .ok t else .error .unmet)

def Holdings.cursorType (h : Holdings) (c : Cursor) (isAttached : Bool) : Except Fault TypeRef :=
  h.typeOf "clang_getCursorType" isAttached (h.tree.cursor c).type

def Holdings.isDeclaration (h : Holdings) (c : Cursor) : Except Fault Bool := do
  let kind ← h.tree.kind c
  h.call "clang_isDeclaration" (.ok kind.isDeclaration)

def Holdings.enumType (h : Holdings) (c : Cursor) (isAttached : Bool) : Except Fault TypeRef := do
  let t ← h.tree.enumType c
  h.typeOf "clang_getEnumDeclIntegerType" isAttached t

def Holdings.declaration (h : Holdings) (t : TypeRef) : Except Fault Cursor :=
  h.callCursor "clang_getTypeDeclaration" (some (h.tree.declaration t)) .null .ok

/-- The value of a constant of an enumeration. Whether it has a sign is found by its type. -/
def Holdings.enumValue (h : Holdings) (c : Cursor) (isAttached : Bool) : Except Fault Int := do
  if (← h.tree.kind c).name != "ENUM_CONSTANT_DECL" then .error .unmet
  else
    let type ← h.cursorType c isAttached
    let type ← if (← h.tree.typeKind type).name == "ENUM" then do
        h.enumType (← h.declaration type) true
      else .ok type
    let isUnsigned := Tree.isUnsigned (← h.tree.typeKind type)
    h.call (if isUnsigned then "clang_getEnumConstantDeclUnsignedValue"
      else "clang_getEnumConstantDeclValue") (h.tree.enumValue c)

def cursorAttribute (h : Holdings) (c : Cursor) (isAttached : Bool) (name : String) :
    Except Fault Object := do
  let data := h.tree.cursor c
  match name with
  | "kind" => .ok (.kind (← h.tree.kind c))
  | "_kind_id" => .ok (.int data.kind)
  | "spelling" =>
    if ← h.isDeclaration c then h.callText "clang_getCursorSpelling" (.ok (.text data.spelling))
    else .ok .nothing
  | "displayname" => h.callText "clang_getCursorDisplayName" (.ok (.text data.display))
  | "location" => h.call "clang_getCursorLocation" (.ok (.location data.location))
  | "extent" =>
    h.call "clang_getCursorExtent" (.ok (.range ⟨data.location, data.stop⟩ (some c)))
  | "type" => do .ok (.type (← h.cursorType c isAttached))
  | "canonical" => h.canonical c isAttached
  | "result_type" =>
    h.call "clang_getResultType" (do .ok (.type (h.tree.type (← h.cursorType c isAttached)).result))
  | "underlying_typedef_type" =>
    if ← h.isDeclaration c then
      .ok (.type (← h.typeOf "clang_getTypedefDeclUnderlyingType" isAttached data.underlying))
    else .error .unmet
  | "enum_type" => do .ok (.type (← h.enumType c isAttached))
  | "enum_value" => do .ok (.int (← h.enumValue c isAttached))
  | "objc_type_encoding" =>
    h.callText "clang_getDeclObjCTypeEncoding" (.ok (.text data.objcEncoding))
  | "hash" => h.call "clang_hashCursor" (.ok (.int data.hash))
  | "semantic_parent" =>
    h.relative "clang_getCursorSemanticParent" isAttached data.semanticParent
  | "lexical_parent" => h.relative "clang_getCursorLexicalParent" isAttached data.lexicalParent
  | "translation_unit" | "_tu" => if isAttached then .ok .unit else .error .missingField
  | "xdata" => .ok (.int c.number)
  | _ => .error .missingField

def typeAttribute (h : Holdings) (t : TypeRef) (name : String) : Except Fault Object := do
  match name with
  | "kind" => .ok (.kind (← h.tree.typeKind t))
  | "_kind_id" => .ok (.int (h.tree.type t).kind)
  | "element_type" =>
    h.call "clang_getElementType" (do .ok (.type (← h.tree.elementType t)))
  | "element_count" =>
    h.call "clang_getNumElements" (do .ok (.int (← h.tree.elementCount t)))
  | "translation_unit" | "_tu" => .ok .unit
  | _ => .error .missingField

def kindAttribute (h : Holdings) (k : Kind) (name : String) : Except Fault Object :=
  match name with
  | "value" => .ok (.int k.value)
  | "name" => do .ok (.text (← k.nameOf))
  | "spelling" =>
    if k.table == "TypeKind" then
      h.callText "clang_getTypeKindSpelling" (.ok (.text ("kind" ++ toString k.value)))
    else .error .missingField
  | _ => .error .missingField

def locationAttribute (h : Holdings) (l : Location) (name : String) : Except Fault Object := do
  match name with
  | "file" => .ok (.file? (← h.place l).file)
  | "line" => .ok (.int (← h.place l).line.toNat)
  | "column" => .ok (.int (← h.place l).column.toNat)
  | "offset" => .ok (.int (← h.place l).offset.toNat)
  | _ => .error .missingField

def rangeAttribute (h : Holdings) (r : Range) (name : String) : Except Fault Object :=
  match name with
  | "start" => h.call "clang_getRangeStart" (.ok (.location r.start))
  | "end" => h.call "clang_getRangeEnd" (.ok (.location r.stop))
  | _ => .error .missingField

def tokenAttribute (h : Holdings) (t : TokenData) (name : String) : Except Fault Object := do
  match name with
  | "spelling" => h.callText "clang_getTokenSpelling" (.ok (.text t.text))
  | "kind" => h.call "clang_getTokenKind" (do .ok (.kind (← h.tokenKinds.token t.kind)))
  | "location" =>
    h.call "clang_getTokenLocation" (.ok (.location (t.range h.tree.file).start))
  | "extent" => h.call "clang_getTokenExtent" (.ok (.range (t.range h.tree.file) none))
  | "cursor" =>
    h.call "clang_annotateTokens" (.ok (.cursor (t.cursor.elim .undeclared .numbered) false))
  | "_tu" => .ok .unit
  | _ => .error .missingField

def severities : List (String × Int) :=
  [("Ignored", 0), ("Note", 1), ("Warning", 2), ("Error", 3), ("Fatal", 4)]

def constant (table : List (String × Int)) (name : String) : Except Fault Object :=
  match table.lookup name with
  | some n => .ok (.int n)
  | none => .error .missingField

def diagnosticAttribute (h : Holdings) (number : Int) (name : String) : Except Fault Object := do
  match name with
  | "severity" =>
    .ok (.int (← h.diagnostic "clang_getDiagnosticSeverity" number (·.severity)))
  | "location" =>
    .ok (.location (← h.diagnostic "clang_getDiagnosticLocation" number (·.location)))
  | "spelling" =>
    .ok (.text (← h.diagnosticPart "clang_getDiagnosticSpelling" number (·.spelling)))
  | "ranges" => .ok (.ranges number)
  | "fixits" => .ok (.fixIts number)
  | "category_number" => h.call "clang_getDiagnosticCategory" (.ok (.int (number + 1)))
  | "category_name" => do
    h.need "clang_getDiagnosticCategory"
    .ok (.text (← h.diagnosticPart "clang_getDiagnosticCategoryName" number (·.category)))
  | "option" =>
    .ok (.text (← h.diagnosticPart "clang_getDiagnosticOption" number (·.option)))
  | "disable_option" =>
    .ok (.text (← h.diagnosticPart "clang_getDiagnosticOption" number (·.disabling)))
  | "ptr" => .ok .pointer
  | _ => constant severities name

def inclusionAttribute (i : InclusionData) (name : String) : Except Fault Object :=
  match name with
  | "source" => .ok (.file? i.source)
  | "include" => .ok (.file? i.file)
  | "location" => .ok (.location { file := i.source, line := i.line })
  | "depth" => .ok (.int i.depth.toNat)
  | "is_input_file" => .ok (.flag (i.depth == 0))
  | _ => .error .missingField

def parseOptions : List (String × Int) := [("PARSE_NONE", 0),
  ("PARSE_DETAILED_PROCESSING_RECORD", 1), ("PARSE_INCOMPLETE", 2),
  ("PARSE_PRECOMPILED_PREAMBLE", 4), ("PARSE_CACHE_COMPLETION_RESULTS", 8),
  ("PARSE_SKIP_FUNCTION_BODIES", 64), ("PARSE_INCLUDE_BRIEF_COMMENTS_IN_CODE_COMPLETION", 128)]

def unitAttribute (h : Holdings) (name : String) : Except Fault Object :=
  match name with
  | "cursor" =>
    h.callCursor "clang_getTranslationUnitCursor" (some h.tree.root) .nothing
      (attached true .unmet)
  | "spelling" => h.callText "clang_getTranslationUnitSpelling" (.ok (.text h.tree.file))
  | "diagnostics" => .ok .diagnostics
  | "obj" | "_as_parameter_" => .ok .pointer
  | _ => constant parseOptions name

def completionAttribute (h : Holdings) (number : Nat) (name : String) : Except Fault Object := do
  match name with
  | "num_chunks" => .ok (.int (← h.chunkCount number))
  | "priority" => .ok (.int (← h.priority number))
  | "availability" => .ok (.chunkKind (← h.availability number))
  | "briefComment" => .ok (.nativeText (h.completionComment number))
  | "obj" | "_as_parameter_" => .ok .pointer
  | _ => .error .missingField

def chunkAttribute (h : Holdings) (number : Nat) (index : Int) (name : String) :
    Except Fault Object := do
  match name with
  | "spelling" => .ok (.text (← h.chunkText number index))
  | "kind" => .ok (.chunkKind (← h.chunkKind number index))
  | "string" =>
    h.call "clang_getCompletionChunkCompletionString" (do
      match (← h.chunk number index).nested with
      | some n => .ok (.completion n)
      | none => .ok .nothing)
  | "cs" => .ok .pointer
  | "key" => .ok (.int index)
  | _ => .error .missingField

def sortConstants : String → List (String × Int)
  | "Diagnostic" => severities
  | "TranslationUnit" => parseOptions
  | "TranslationUnitSaveError" =>
    [("ERROR_UNKNOWN", 1), ("ERROR_TRANSLATION_ERRORS", 2), ("ERROR_INVALID_TU", 3)]
  | "CompilationDatabaseError" => [("ERROR_UNKNOWN", 0), ("ERROR_CANNOTLOADDATABASE", 1)]
  | _ => []

def sortAttribute (h : Holdings) (sort name : String) : Except Fault Object :=
  if name == "__name__" then .ok (.text sort)
  else
    match h.kindTable? sort with
    | some table =>
      match table.number? name, sortMemberText? sort name with
      | some n, _ => .ok (.kind ⟨table.label, n, name⟩)
      | none, some text => .ok (.text text)
      | none, none => .error .missingField
    | none =>
      match sortMemberText? sort name with
      | some text => .ok (.text text)
      | none => constant (sortConstants sort) name

def Object.property (h : Holdings) (o : Object) (name : String) : Except Fault Object :=
  match o with
  | .cursor c isAttached => cursorAttribute h c isAttached name
  | .type t => typeAttribute h t name
  | .kind k => kindAttribute h k name
  | .location l => locationAttribute h l name
  | .range r _ => rangeAttribute h r name
  | .token t => tokenAttribute h t name
  | .diagnostic number => diagnosticAttribute h number name
  | .inclusion i => inclusionAttribute i name
  | .unit => unitAttribute h name
  | .completion number => completionAttribute h number name
  | .chunk number index => chunkAttribute h number index name
  | .sort s => sortAttribute h s name
  | .comment (.mk k _ _) =>
    if name == "kind" then h.call "clang_Comment_getKind" ((h.commentKinds.find k).map .kind)
    else .error .missingField
  | .file f =>
    match name with
    | "name" => do .ok (.text (← h.fileName f))
    | "time" => h.call "clang_getFileTime" (.ok (.int 0))
    | "obj" | "_as_parameter_" => .ok .pointer
    | _ => .error .missingField
  | .fixIt f =>
    match name with
    | "range" => .ok (.range f.range none)
    | "value" => .ok (.text f.text)
    | _ => .error .missingField
  | .command c all =>
    match name with
    | "directory" => h.callText "clang_CompileCommand_getDirectory" (.ok (.text c.directory))
    | "arguments" =>
      let fault := h.lacking (if c.args.isEmpty then ["clang_CompileCommand_getNumArgs"]
        else ["clang_CompileCommand_getNumArgs", "clang_CompileCommand_getArg",
          "clang_getCString"])
      .ok (.stream "generator object CompileCommand.arguments" (c.args.map .text) fault)
    | "cmd" => .ok .pointer
    | "ccmds" => .ok (.commands all)
    | _ => .error .missingField
  | .commands _ => if name == "ccmds" then .ok .pointer else .error .missingField
  | .arguments t isCounted =>
    match name with
    | "parent" => .ok (.type t)
    | "length" =>
      .ok (if isCounted then .int (h.tree.type t).arguments.length else .nothing)
    | _ => .error .missingField
  | .completions cs =>
    match name with
    | "results" => .ok (.completionResults cs.results)
    | "diagnostics" => .ok (.completionDiagnostics cs.diagnostics)
    | "ptr" | "_as_parameter_" => .ok .pointer
    | _ => .error .missingField
  | .completionResults rs =>
    match name with
    | "numResults" => .ok (.int rs.length)
    | "results" => .ok .pointer
    | _ => .error .missingField
  | .completionResult k number =>
    match name with
    | "kind" => (h.tree.cursorKinds.find k).map .kind
    | "string" => .ok (.completion number)
    | "cursorKind" => .ok (.int k)
    | "completionString" => .ok .pointer
    | _ => .error .missingField
  | .chunkKind n => if name == "name" then .ok (.text n) else .error .missingField
  | .nativeText t => if name == "spelling" then .ok (.text? t) else .error .missingField
  | .database | .catalogue =>
    if name == "obj" || name == "_as_parameter_" then .ok .pointer else .error .missingField
  | _ => .error .missingField

/-- The attribute of an object with a name: a method, which is only described, or a property. -/
def Object.attribute (h : Holdings) (o : Object) (name : String) : Except Fault Object := do
  match o.sort? with
  | none => o.property h name
  | some s =>
    if name == "__class__" then .ok (.sort s)
    else if (memberText? s name "").isSome then
      .ok (.text ((memberText? s name (← o.summary h)).getD ""))
    else o.property h name

end PxdGen.Index
