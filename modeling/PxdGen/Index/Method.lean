import PxdGen.Index.Attribute
import PxdGen.Index.Target
/-! # Methods

The methods of objects, by the names under which they are called. Two of them do more than answer:
asking for completions is a request to the library, and files that are given by their contents may
be printed.
-/

namespace PxdGen.Index

structure CompletionCall where
  path : Value
  line : Value
  column : Value
  options : Nat
deriving Repr

/-- What has come of the questions so far. -/
structure Desk where
  console : String := ""
  /-- the newest first -/
  calls : List CompletionCall := []
  /-- the objects that targets have been found to mean -/
  kept : List (Target × Object) := []
  /-- kinds to which others have been added -/
  kinds : List KindTable := []

abbrev Ask := ExceptT Fault (StateM Desk)

def Ask.ofExcept {α : Type} : Except Fault α → Ask α
  | .ok a => pure a
  | .error fault => throw fault

/-! ### Places -/

def placeAt (h : Holdings) (file : String) (line column : Object) : Except Fault Location := do
  h.need "clang_getLocation"
  match line, column with
  | .value line, .value column =>
    match line.asInt?, column.asInt? with
    | some line, some column =>
      .ok { file := some file, line := .ofInt line, column := .ofInt column }
    | _, _ => .error .wrongSort
  | _, _ => .error .wrongSort

/-- The place that a pair of a line and a column means. -/
def position (h : Holdings) (file : String) (o : Object) : Except Fault Location := do
  placeAt h file (← o.item h (.int 0)) (← o.item h (.int 1))

/-- The place with an offset, whose line and column are not known. -/
def offsetPlace (h : Holdings) (file : String) (offset : Int) : Except Fault Object :=
  h.call "clang_getLocationForOffset"
    (.ok (.location { file := some file, offset := .ofInt offset }))

def Object.asInt? : Object → Option Int
  | .value v => v.asInt?
  | _ => none

/-- The place that one end of a range means: a place, an offset, or a line and a column. -/
def rangeEnd (h : Holdings) (file : String) (o : Object) : Except Fault Object :=
  if o.hasLength then (position h file o).map .location
  else
    match o.asInt? with
    | some offset => offsetPlace h file offset
    | none => .ok o

def extentOf (h : Holdings) (file : String) (ends : Object) : Except Fault Object := do
  if (← ends.length h) < 2 then .error .tooFewLocations
  else
    match ← ends.items h with
    | [start, stop] => do
      let start ← rangeEnd h file start
      let stop ← rangeEnd h file stop
      match start, stop with
      | .location a, .location b => h.call "clang_getRange" (.ok (.range ⟨a, b⟩ none))
      | _, _ => .error .unmet
    | _ => .error .malformed

def locationOf (h : Holdings) (file : String) (o : Object) : Except Fault Object :=
  match o.asInt? with
  | some offset => offsetPlace h file offset
  | none => (position h file o).map .location

/-- The tokens in the range of a cursor; every other range has those of the unit. -/
def tokensIn (h : Holdings) : Object → Object
  | .range _ (some c) => stream (h.tree.cursor c).tokens
  | _ => stream h.tree.tokens
where
  stream (tokens : List TokenData) : Object :=
    .stream "generator object TokenGroup.get_tokens" (tokens.map .token)
      (h.lacking ["clang_tokenize"])

def cursorAt (tree : Tree) (l : Location) : Cursor :=
  match tree.cursors.findIdx? fun c => c.location.file == l.file && c.location.line == l.line with
  | some i => .numbered i
  | none => .null

/-! ### Files given by their contents -/

/-- A file by its contents is always refused: contents have to be read as a text and to be handed
on as bytes. What is read from an open file is printed. -/
def refuseContents : Object → Ask Unit
  | .value (.text _) => throw .wrongSort
  | .reader content true => do
    modify fun d => { d with console := d.console ++ content ++ "\n" }
    throw .wrongSort
  | .reader content false => do
    modify fun d => { d with console := d.console ++ Text.quotedBytes content ++ "\n" }
    throw .contentsSort
  | _ => throw .missingField

/-- Only an empty list of files by their contents is taken. -/
def checkUnsaved (h : Holdings) (o : Object) : Ask Unit := do
  match o with
  | .value .nothing => pure ()
  | o => do
    let _ ← Ask.ofExcept (o.length h)
    match ← Ask.ofExcept (o.items h) with
    | [] => pure ()
    | first :: _ => do
      match ← Ask.ofExcept (first.items h) with
      | [_, contents] => refuseContents contents
      | _ => throw .malformed

def Object.isTrue : Object → Bool
  | .value v => v.isTrue
  | .list os => !os.isEmpty
  | .bytes s => !s.isEmpty
  | _ => true

mutual

def Object.plainValue : Object → Value
  | .value v => v
  | .bytes s => .text s
  | .list os => .list (plainValues os)
  | _ => .nothing

def Object.plainValues : List Object → List Value
  | [] => []
  | o :: rest => o.plainValue :: plainValues rest

end

def complete (h : Holdings) (path line column : Object) (more : List Object) : Ask Object := do
  let option (i n : Nat) : Nat :=
    match more[i]? with
    | some o => if o.isTrue then n else 0
    | none => 0
  checkUnsaved h (more.headD .nothing)
  let call : CompletionCall := {
    path := path.plainValue, line := line.plainValue, column := column.plainValue
    options := option 1 1 + option 2 2 + option 3 4 }
  Ask.ofExcept (h.need "clang_codeCompleteAt")
  modify fun d => { d with calls := call :: d.calls }
  match h.tree.completions with
  | some cs => pure (.completions cs)
  | none => pure .nothing

def saveUnit (h : Holdings) : Except Fault Object := do
  h.need "clang_defaultSaveOptions"
  h.need "clang_saveTranslationUnit"
  let status := h.tree.saveStatus
  if status == 0 then .ok .nothing
  else if 1 ≤ status && status ≤ 3 then .error (.notSaved status)
  else .error (.saveStatus status)

/-! ### Methods of each sort of objects -/

/-- The arguments of a cursor, which are found one after the other. -/
def cursorArguments (h : Holdings) (c : Cursor) (isAttached : Bool) : Object :=
  let found := (h.tree.cursor c).arguments
  let fault := if found.isEmpty then h.lacking ["clang_Cursor_getNumArguments"]
    else (h.lacking ["clang_Cursor_getNumArguments", "clang_Cursor_getArgument",
      "clang_getNullCursor", "clang_equalCursors"]).or (if isAttached then none else some .unmet)
  .stream "generator object Cursor.get_arguments"
    (found.map fun i => .cursor (.numbered i) true) fault

/-- The children of a cursor. One that cannot be told from the null cursor, or cannot be given its
unit, is passed over. -/
def cursorChildren (h : Holdings) (c : Cursor) (isAttached : Bool) : Object :=
  let found := if isAttached && h.knowsNull then (h.tree.cursor c).children else []
  .stream "list_iterator object" (found.map fun i => .cursor (.numbered i) true) none

def cursorMethod (h : Holdings) (c : Cursor) (isAttached : Bool) (name : String) :
    Option (Except Fault Object) :=
  let data := h.tree.cursor c
  match name with
  | "is_definition" =>
    some (h.call "clang_isCursorDefinition" (.ok (.flag (match c with
      | .numbered i => data.definition == some i
      | _ => false))))
  | "is_static_method" => some (h.call "clang_CXXMethod_isStatic" (.ok (.flag data.isStatic)))
  | "get_definition" =>
    some (h.callCursor "clang_getCursorDefinition" data.definition .nothing
      (attached isAttached .unmet))
  | "get_usr" => some (h.callText "clang_getCursorUSR" (.ok (.text data.usr)))
  | "get_arguments" => some (.ok (cursorArguments h c isAttached))
  | "get_children" =>
    some (h.call "clang_visitChildren" (.ok (cursorChildren h c isAttached)))
  | "get_tokens" =>
    some (if isAttached then
        h.call "clang_getCursorExtent" (.ok (tokensIn.stream h data.tokens))
      else .error .missingField)
  | "get_brief_comment_text" =>
    some (h.callText "clang_Cursor_getBriefCommentText" (.ok (.text? data.brief)))
  | "get_raw_comment_text" =>
    some (h.callText "clang_Cursor_getRawCommentText" (.ok (.text? data.raw)))
  | "get_parsed_comment" =>
    some (h.call "clang_Cursor_getParsedComment" (.ok (.comment data.comment)))
  | _ => none

def typeMethod (h : Holdings) (t : TypeRef) (name : String) : Option (Except Fault Object) :=
  let data := h.tree.type t
  match name with
  | "argument_types" => some (do
    let kind ← h.tree.typeKind t
    if kind.name == "FUNCTIONPROTO" || kind.name == "FUNCTIONNOPROTO" then
      .ok (.arguments t false)
    else .error .unmet)
  | "get_canonical" =>
    some (h.call "clang_getCanonicalType" (.ok (.type (h.tree.canonicalType t))))
  | "is_const_qualified" =>
    some (h.call "clang_isConstQualifiedType" (.ok (.flag data.isConst)))
  | "is_volatile_qualified" =>
    some (h.call "clang_isVolatileQualifiedType" (.ok (.flag data.isVolatile)))
  | "is_restrict_qualified" =>
    some (h.call "clang_isRestrictQualifiedType" (.ok (.flag data.isRestrict)))
  | "is_function_variadic" => some (do
    if (← h.tree.typeKind t).name == "FUNCTIONPROTO" then
      h.call "clang_isFunctionTypeVariadic" (.ok (.flag data.isVariadic))
    else .error .unmet)
  | "is_pod" => some (h.call "clang_isPODType" (.ok (.flag data.isPod)))
  | "get_pointee" => some (h.call "clang_getPointeeType" (.ok (.type data.pointee)))
  | "get_declaration" => some (do .ok (.cursor (← h.declaration t) true))
  | "get_result" => some (h.call "clang_getResultType" (.ok (.type data.result)))
  | "get_array_element_type" =>
    some (h.call "clang_getArrayElementType" (.ok (.type data.element)))
  | "get_array_size" => some (h.call "clang_getArraySize" (.ok (.int data.count)))
  | _ => none

def kindMethod (h : Holdings) (k : Kind) (name : String) : Option (Except Fault Object) :=
  let group : Option (String × Bool) := if k.table != "CursorKind" then none else
    match name with
    | "is_declaration" => some ("clang_isDeclaration", k.isDeclaration)
    | "is_reference" => some ("clang_isReference", k.isReference)
    | "is_expression" => some ("clang_isExpression", k.isExpression)
    | "is_statement" => some ("clang_isStatement", k.isStatement)
    | "is_attribute" => some ("clang_isAttribute", k.isAttribute)
    | "is_invalid" => some ("clang_isInvalid", k.isInvalid)
    | "is_translation_unit" => some ("clang_isTranslationUnit", k.isUnit)
    | "is_preprocessing" => some ("clang_isPreprocessing", k.isPreprocessing)
    | "is_unexposed" => some ("clang_isUnexposed", k.isUnexposed)
    | _ => none
  match group with
  | some (function, b) => some (h.call function (.ok (.flag b)))
  | none =>
    if name == "from_param" && k.table != "TokenKind" then some (.ok (.int k.value)) else none

def chunkMethod (h : Holdings) (number : Nat) (index : Int) (name : String) :
    Option (Except Fault Object) :=
  let isKind (wanted : String) : Option (Except Fault Object) :=
    some (do .ok (.flag ((← h.chunkKind number index) == wanted)))
  match name with
  | "isKindOptional" => isKind "Optional"
  | "isKindTypedText" => isKind "TypedText"
  | "isKindPlaceHolder" => isKind "Placeholder"
  | "isKindInformative" => isKind "Informative"
  | "isKindResultType" => isKind "ResultType"
  | _ => none

def commentMethod (h : Holdings) (kind : Int) (text : String) (children : List Comment)
    (name : String) : Option (Except Fault Object) :=
  match name with
  | "text" => some (do
    let found ← h.call "clang_Comment_getKind" (h.commentKinds.find kind)
    if found.name == "TEXT" then h.callText "clang_TextComment_getText" (.ok (.text text))
    else .ok .nothing)
  | "children" =>
    let fault := h.lacking (if children.isEmpty then ["clang_Comment_getNumChildren"]
      else ["clang_Comment_getNumChildren", "clang_Comment_getChild"])
    some (.ok (.stream "generator object Comment.children" (children.map .comment) fault))
  | _ => none

/-- The inclusions of other files. One whose place cannot be found is passed over. -/
def unitInclusions (h : Holdings) : Object :=
  let found := if h.has "clang_getInstantiationLocation" then h.tree.otherInclusions else []
  .stream "list_iterator object" (found.map .inclusion) none

def Object.simpleMethod (h : Holdings) (o : Object) (name : String) :
    Option (Except Fault Object) :=
  match o with
  | .cursor c isAttached => cursorMethod h c isAttached name
  | .type t => typeMethod h t name
  | .kind k => kindMethod h k name
  | .chunk number index => chunkMethod h number index name
  | .location l =>
    if name == "_get_instantiation" then some (do
      let l ← h.place l
      .ok (.list [.file? l.file, .int l.line.toNat, .int l.column.toNat, .int l.offset.toNat]))
    else none
  | .comment (.mk k s children) => commentMethod h k s children name
  | .unit =>
    match name with
    | "get_includes" => some (h.call "clang_getInclusions" (.ok (unitInclusions h)))
    | "from_param" => some (.ok .pointer)
    | _ => none
  | .diagnostic _ | .database | .catalogue | .completions _ | .completion _ | .file _ =>
    if name == "from_param" then some (.ok .pointer) else none
  | _ => none

/-- The name of a file, which is a text or bytes. -/
def Object.asName : Object → Except Fault String
  | .value (.text name) | .bytes name => .ok name
  | _ => .error .wrongSort

def fileNamed (h : Holdings) (file : Object) : Except Fault String :=
  h.call "clang_getFile" file.asName

def unitMethod (h : Holdings) (name : String) (args : List Object) : Option (Ask Object) :=
  match name, args with
  | "get_file", [file] => some (Ask.ofExcept ((fileNamed h file).map .file))
  | "get_location", [file, o] =>
    some (Ask.ofExcept (do locationOf h (← fileNamed h file) o))
  | "get_extent", [file, ends] =>
    some (Ask.ofExcept (do extentOf h (← fileNamed h file) ends))
  | "get_tokens", [] => some (pure (tokensIn h .nothing))
  | "get_tokens", [.value .nothing] => some (pure (tokensIn h .nothing))
  | "get_tokens", [.value .nothing, extent] => some (pure (tokensIn h extent))
  | "get_tokens", places :: rest =>
    if rest.length ≤ 1 then some (do
      let _ ← Ask.ofExcept (places.item h (.int 0))
      let _ ← Ask.ofExcept (places.item h (.int 1))
      throw .missingField)
    else some (throw .wrongSort)
  | "save", [_] => some (Ask.ofExcept (saveUnit h))
  | "reparse", [] => some (reparse .nothing)
  | "reparse", unsaved :: rest =>
    if rest.length ≤ 1 then some (reparse unsaved)
    else some (throw .wrongSort)
  | "codeComplete", path :: line :: column :: more =>
    if more.length ≤ 4 then some (complete h path line column more) else some (throw .wrongSort)
  | "get_file", _ | "get_location", _ | "get_extent", _ | "save", _ | "codeComplete", _ =>
    some (throw .wrongSort)
  | _, _ => none
where
  reparse (unsaved : Object) : Ask Object := do
    checkUnsaved h unsaved
    Ask.ofExcept (h.call "clang_reparseTranslationUnit" (.ok .nothing))

/-- Whether an object knows its unit, so that others can learn it from there. -/
def Object.knowsUnit : Object → Bool
  | .cursor _ isAttached => isAttached
  | .type _ => true
  | _ => false

/-- A cursor that came of a call with arguments, one of which has to tell the unit. -/
def cursorResult (h : Holdings) (res args : Object) : Except Fault Object :=
  match res with
  | .cursor .null _ => h.checkNull (.ok .nothing)
  | .cursor c _ => h.checkNull do
    let tells (o : Object) : Bool := match o with
      | .unit => true
      | o => o.knowsUnit
    if (← args.items h).any tells then .ok (.cursor c true) else .error .unmet
  | _ => .error .unmet

/-- A cursor that came of a call whose first argument tells the unit. -/
def relatedResult (h : Holdings) (res args : Object) : Except Fault Object :=
  match res with
  | .cursor .null _ => h.checkNull (.ok .nothing)
  | .cursor c _ => h.checkNull do
    match ← args.item h (.int 0) with
    | .token _ => .ok (.cursor c true)
    | o => if o.knowsUnit then .ok (.cursor c true) else .error .missingField
  | _ => .error .unmet

def typeResult (h : Holdings) (res args : Object) : Except Fault Object :=
  match res with
  | .type t => do if (← args.items h).any (·.knowsUnit) then .ok (.type t) else .error .unmet
  | _ => .error .unmet

def fileResult (h : Holdings) (res args : Object) : Except Fault Object :=
  match res with
  | .file name => do
    match ← args.item h (.int 0) with
    | .token _ => .ok (.file name)
    | o => if o.knowsUnit then .ok (.file name) else .error .missingField
  | _ => .error .unmet

def Holdings.openDatabase (h : Holdings) : Except Fault Object := do
  h.need "clang_CompilationDatabase_fromDirectory"
  match h.database with
  | .unreadable status =>
    let code := status % Int.pow 2 32
    if 1 < code then .error (.databaseStatus code) else .error (.databaseError code)
  | .files _ => .ok .database

def Holdings.commandsFor (h : Holdings) (o : Object) : Except Fault Object := do
  h.need "clang_CompilationDatabase_getCompileCommands"
  match h.database, o with
  | .files table, .value (.text file) =>
    match table.get? file with
    | some cs => .ok (.commands cs)
    | none => .ok .nothing
  | _, _ => .ok .nothing

def kindFrom (find : Int → Except Fault Kind) (o : Object) : Except Fault Object :=
  match o.asInt? with
  | some n => (find n).map .kind
  | none => .error .wrongSort

def keepKinds (table : KindTable) : Ask Unit :=
  modify fun d => { d with kinds := table :: d.kinds.filter (·.label != table.label) }

/-- Registers a kind of token, which has to have a value of its own. Only numbers are found
again. -/
def registerToken (h : Holdings) (value label : Object) : Ask Object := do
  match value.asInt?, value with
  | some n, _ =>
    match h.tokenKinds.token n, label with
    | .ok _, _ => throw (.tokenKindTaken n)
    | .error _, .value (.text name) => do
      if 0 ≤ n then keepKinds (← Ask.ofExcept (h.tokenKinds.add n name))
      pure .nothing
    | .error _, _ => do
      if 0 ≤ n then keepKinds (← Ask.ofExcept (h.tokenKinds.add n label.plainValue.plain))
      throw .wrongSort
  | none, .list _ => throw .wrongSort
  | none, _ => pure .nothing

/-- Makes a kind, which has to have a number of its own, and has no name. -/
def makeKind (table : KindTable) (o : Object) : Ask Object := do
  match o.asInt? with
  | some n => do
    keepKinds (← Ask.ofExcept (table.add n ""))
    pure (.kind ⟨table.label, (table.place? n).getD 0, ""⟩)
  | none => throw .wrongSort

def kindMaker (h : Holdings) (sort name : String) (args : List Object) : Option (Ask Object) :=
  match name, args with
  | "register", [value, label] =>
    if sort == "TokenKind" then some (registerToken h value label) else none
  | "__call__", _ =>
    match sort == "TokenKind", h.kindTable? sort, args with
    | true, _, [value, label] =>
      some (pure (.kind ⟨sort, (value.asInt?.getD 0).toNat, label.plainValue.plain⟩))
    | false, some table, [id] => some (makeKind table id)
    | _, some _, _ => some (throw .wrongSort)
    | _, none, _ => none
  | _, _ => none

/-- Objects that only the library can make. -/
def nativeSorts : List (String × Nat) := [("ClangObject", 1), ("Index", 1), ("File", 1),
  ("CompletionString", 1), ("CompilationDatabase", 1), ("CodeCompletionResults", 1),
  ("TranslationUnit", 2)]

/-- Functions of a sort of objects; they refuse other arguments than theirs. -/
def sortMethod (h : Holdings) (sort name : String) (args : List Object) :
    Option (Except Fault Object) :=
  match sort, name, args with
  | "Cursor", "from_result", [res, _, args] => some (cursorResult h res args)
  | "Cursor", "from_cursor_result", [res, _, args] => some (relatedResult h res args)
  | "Cursor", "from_location", [tu, l] =>
    some (h.call "clang_getCursor" (match tu, l with
      | .unit, .location l => .ok (.cursor (cursorAt h.tree l) true)
      | _, _ => .error .wrongSort))
  | "Type", "from_result", [res, _, args] => some (typeResult h res args)
  | "SourceLocation", "from_position", [tu, file, line, column] =>
    some (h.call "clang_getLocation" (match tu, file with
      | .unit, .file file => (placeAt h file line column).map .location
      | _, _ => .error .wrongSort))
  | "SourceLocation", "from_offset", [tu, file, offset] =>
    some (h.call "clang_getLocationForOffset" (match tu, file, offset.asInt? with
      | .unit, .file file, some n => offsetPlace h file n
      | _, _, _ => .error .wrongSort))
  | "SourceRange", "from_locations", [a, b] =>
    some (h.call "clang_getRange" (match a, b with
      | .location a, .location b => .ok (.range ⟨a, b⟩ none)
      | _, _ => .error .wrongSort))
  | "TokenGroup", "get_tokens", [.unit, extent] => some (.ok (tokensIn h extent))
  | "File", "from_name", [tu, file] =>
    some (h.call "clang_getFile" (match tu with
      | .unit => file.asName.map .file
      | _ => .error .wrongSort))
  | "File", "from_cursor_result", [res, _, args] => some (fileResult h res args)
  | "_CXString", "from_result", [.nativeText t, _, _] =>
    some (h.call "clang_getCString" (.ok (.text? t)))
  | "_CXString", "from_result", [_, _, _] => some (.error .unmet)
  | "Index", "create", [] | "Index", "create", [_] =>
    some (h.call "clang_createIndex" (.ok .catalogue))
  | "CompilationDatabase", "fromDirectory", [_] => some h.openDatabase
  | "CompilationDatabase", "from_result", [res, _, _] =>
    some (if res.isTrue then .error .unmet else .error (.databaseError 0))
  | "CompileCommands", "from_result", [res, _, _] =>
    some (if res.isTrue then .ok (.commands []) else .ok .nothing)
  | "TokenKind", "from_value", [value] => some (kindFrom h.tokenKinds.token value)
  | "CursorKind", "get_all_kinds", [] =>
    let table := h.tree.cursorKinds
    some (.ok (.list (table.entries.map fun (n, s) => .kind ⟨table.label, n, s⟩)))
  | _, "from_id", [id] => (h.kindTable? sort).map fun table => kindFrom table.find id
  | "FixIt", "__call__", [.range r _, .value (.text s)] => some (.ok (.fixIt ⟨r, s⟩))
  | _, "__call__", args =>
    (nativeSorts.lookup sort).map fun n =>
      if args.length == n then .error .unmet else .error .wrongSort
  | _, _, _ =>
    if (membersOf sort).functions.contains name then some (.error .wrongSort) else none

/-! ### The arguments of a function type -/

/-- One end of a search among arguments; negative ones count from the end. -/
def searchEnd (h : Holdings) (t : TypeRef) (v : Value) : Except Fault Int :=
  match v.asInt? with
  | some n => if n < 0 then do .ok (n + (← h.argumentCount t)) else .ok n
  | none => .error .wrongSort

/-- Whether the argument of a function type with an index is the same as an object, and nothing if
there is none. -/
def isArgument? (h : Holdings) (t : TypeRef) (o : Object) (i : Nat) :
    Except Fault (Option Bool) :=
  match Object.argument h t (.int i) with
  | .ok a => do .ok (some (← Object.same h (.type a) o))
  | .error (.argumentBeyond _ _) | .error .noArgument => .ok none
  | .error fault => .error fault

def firstPlace (h : Holdings) (t : TypeRef) (o : Object) : List Nat → Except Fault Object
  | [] => .error .malformed
  | i :: rest => do
    match ← isArgument? h t o i with
    | none => .error .malformed
    | some true => .ok (.int i)
    | some false => firstPlace h t o rest

/-- How often an argument stands among some places, up to one without an argument. -/
def countPlaces (h : Holdings) (t : TypeRef) (o : Object) : List Nat → Except Fault Nat
  | [] => .ok 0
  | i :: rest => do
    match ← isArgument? h t o i with
    | none => .ok 0
    | some b => do .ok ((if b then 1 else 0) + (← countPlaces h t o rest))

/-- The places of a function type from one place on, up to the first without an argument. -/
def placesFrom (h : Holdings) (t : TypeRef) (start : Nat) : List Nat :=
  List.range' start ((h.tree.type t).arguments.length + 1 - start + 1)

def argumentPlace (h : Holdings) (t : TypeRef) (o : Object) (start stop : Value) :
    Except Fault Object := do
  let first ← match start with
    | .nothing => pure none
    | v => (searchEnd h t v).map (some ·.toNat)
  let stop ← match stop with
    | .nothing => pure none
    | v => (searchEnd h t v).map some
  match first, stop with
  | none, none => .error .indexSort
  | none, some _ => .error .wrongSort
  | some i, _ => firstPlace h t o ((placesFrom h t i).takeWhile fun i => stop.all ((i : Int) < ·))

def argumentsMethod (h : Holdings) (t : TypeRef) (name : String) (args : List Object) :
    Option (Except Fault Object) :=
  match name, args with
  | "index", [o] => some (argumentPlace h t o (.int 0) .nothing)
  | "index", [o, start] => some (argumentPlace h t o start.plainValue .nothing)
  | "index", [o, start, stop] => some (argumentPlace h t o start.plainValue stop.plainValue)
  | "count", [o] => some (do .ok (.int (← countPlaces h t o (placesFrom h t 0))))
  | "index", _ | "count", _ => some (.error .wrongSort)
  | _, _ => none

/-! ### Lists -/

/-- One end of a search in a list; negative ones count from its end. -/
def listEnd (length : Nat) (o : Object) : Except Fault Nat :=
  match o.asInt? with
  | some n => .ok (if n < 0 then n + length else n).toNat
  | none => .error .wrongSort

def placeIn (h : Holdings) (o : Object) (i : Nat) : List Object → Except Fault Object
  | [] => .error .malformed
  | a :: rest => do if ← a.same h o then .ok (.int i) else placeIn h o (i + 1) rest

def countIn (h : Holdings) (o : Object) : List Object → Except Fault Nat
  | [] => .ok 0
  | a :: rest => do .ok ((if ← a.same h o then 1 else 0) + (← countIn h o rest))

def listMethod (h : Holdings) (os : List Object) (name : String) (args : List Object) :
    Option (Except Fault Object) :=
  match name, args with
  | "index", [o] => some (placeIn h o 0 os)
  | "index", [o, start] => some (do
    let i ← listEnd os.length start
    placeIn h o i (os.drop i))
  | "index", [o, start, stop] => some (do
    let i ← listEnd os.length start
    placeIn h o i ((os.take (← listEnd os.length stop)).drop i))
  | "count", [o] => some (do .ok (.int (← countIn h o os)))
  | "index", _ | "count", _ => some (.error .wrongSort)
  | _, _ => none

/-! ### Methods that every object may have -/

/-- Whether an object is among the items of a sequence. -/
def isAmong (h : Holdings) (o : Object) : Object → Except Fault Bool
  | .arguments t _ => found (firstPlace h t o (placesFrom h t 0))
  | .list os => found (placeIn h o 0 os)
  | _ => .error .missingField
where
  found : Except Fault Object → Except Fault Bool
    | .ok _ => .ok true
    | .error .malformed => .ok false
    | .error fault => .error fault

/-- Methods by which objects are shown, counted, indexed and compared. -/
def Object.specialMethod (h : Holdings) (o : Object) (name : String) (args : List Object) :
    Option (Except Fault Object) :=
  match name, args with
  | "__repr__", [] => some ((o.summary h).map .text)
  | "__str__", [] => some ((o.display h).map .text)
  | "__len__", [] =>
    if !o.hasLength then none
    else some (match o with
      | .completion number => (h.chunkCount number).map fun _ => .nothing
      | o => (o.length h).map fun n => .int n)
  | "__getitem__", [.value k] => if o.hasLength then some (o.item h k) else none
  | "__contains__", [a] =>
    match o with
    | .arguments _ _ | .list _ => some ((isAmong h a o).map .flag)
    | _ => none
  | "__eq__", [a] => o.comparison?.map fun _ => (o.same h a).map .flag
  | "__ne__", [a] => o.comparison?.map fun _ => (o.same h a).map fun b => .flag !b
  | _, _ => none

def functionOf (h : Holdings) (sort name : String) (args : List Object) :
    Option (Except Fault Object) :=
  if (ownerOf? (·.functions.contains name) sort).isSome then sortMethod h sort name args else none

/-- Calls the method of an object with a name. What is no method is no less asked for before it
turns out that it cannot be called. -/
def Object.invoke (h : Holdings) (o : Object) (name : String) (args : List Object) : Ask Object :=
  match o.simpleMethod h name with
  | some answer => if args.isEmpty then Ask.ofExcept answer else throw .wrongSort
  | none =>
    let found : Option (Ask Object) := match o, name, args with
      | .unit, _, _ => unitMethod h name args
      | .sort s, _, _ => (kindMaker h s name args).or ((sortMethod h s name args).map Ask.ofExcept)
      | .database, "getCompileCommands", [o] => some (Ask.ofExcept (h.commandsFor o))
      | .database, "getCompileCommands", _ => some (throw .wrongSort)
      | .catalogue, "read", [_] => some (throw .missingField)
      | .arguments t _, _, _ => (argumentsMethod h t name args).map Ask.ofExcept
      | .list os, _, _ => (listMethod h os name args).map Ask.ofExcept
      | _, _, _ => none
    let special := match o with
      | .sort _ => none
      | o => o.specialMethod h name args
    let function := o.sort?.bind fun s => functionOf h s name args
    match found.or ((special.or function).map Ask.ofExcept) with
    | some answer => answer
    | none => do
      let _ ← Ask.ofExcept (o.attribute h name)
      throw .wrongSort

/-- Calls a method of an object, or of a sort with an object of it in front of the arguments. -/
def Object.call (h : Holdings) (o : Object) (name : String) (args : List Object) : Ask Object :=
  match o, args with
  | .sort s, first :: rest =>
    if first.sort? == some s && (ownerOf? (·.methods.contains name) s).isSome then
      first.invoke h name rest
    else o.invoke h name args
  | _, _ => o.invoke h name args

end PxdGen.Index
