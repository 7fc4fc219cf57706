import PxdGen.Text.Blank
import PxdGen.Value
/-! # The indexing library

The functions of the library that indexes source code, in the order in which they are looked up,
with the types of their arguments and results and the check that a result goes through.
-/

namespace PxdGen.Index

structure Signature where
  name : String
  arguments : List String := []
  /-- empty if nothing is said about it -/
  result : String := ""
  /-- empty if there is none -/
  check : String := ""
deriving DecidableEq, Repr

/-- Reads a signature from the rest of the name and the arguments, the result and the check, with
colons between them. -/
def Signature.ofText? (s : String) : Option Signature :=
  match (Text.pieces ':' s).map Text.words with
  | (name :: arguments) :: rest =>
    let word (i : Nat) := (rest.getD i []).headD ""
    some ⟨"clang_" ++ name, arguments, word 0, word 1⟩
  | _ => none

def functions : List Signature := (Text.pieces '\n' "
 annotateTokens TranslationUnit LP_Token c_uint LP_Cursor
 CompilationDatabase_dispose LP_c_void_p
 CompilationDatabase_fromDirectory c_char_p LP_c_uint:LP_c_void_p:CompilationDatabase.from_result
 CompilationDatabase_getCompileCommands LP_c_void_p c_char_p:LP_c_void_p:CompileCommands.from_result
 CompileCommands_dispose LP_c_void_p
 CompileCommands_getCommand LP_c_void_p c_uint:LP_c_void_p
 CompileCommands_getSize LP_c_void_p:c_uint
 CompileCommand_getArg LP_c_void_p c_uint:_CXString:_CXString.from_result
 CompileCommand_getDirectory LP_c_void_p:_CXString:_CXString.from_result
 CompileCommand_getNumArgs LP_c_void_p:c_uint
 codeCompleteAt TranslationUnit c_char_p c_int c_int c_void_p c_int c_int:LP_CCRStructure
 codeCompleteGetDiagnostic CodeCompletionResults c_int:Diagnostic
 codeCompleteGetNumDiagnostics CodeCompletionResults:c_int
 createIndex c_int c_int:LP_c_void_p
 createTranslationUnit Index c_char_p:LP_c_void_p
 CXXMethod_isStatic Cursor:bool
 CXXMethod_isVirtual Cursor:bool
 defaultSaveOptions TranslationUnit:c_uint
 disposeCodeCompleteResults CodeCompletionResults
 disposeDiagnostic Diagnostic
 disposeIndex Index
 disposeString _CXString
 disposeTokens TranslationUnit LP_Token c_uint
 disposeTranslationUnit TranslationUnit
 equalCursors Cursor Cursor:bool
 equalLocations SourceLocation SourceLocation:bool
 equalRanges SourceRange SourceRange:bool
 equalTypes Type Type:bool
 getArgType Type c_uint:Type:Type.from_result
 getArrayElementType Type:Type:Type.from_result
 getArraySize Type:c_long
 getCanonicalCursor Cursor:Cursor:Cursor.from_cursor_result
 getCanonicalType Type:Type:Type.from_result
 getCompletionAvailability c_void_p:c_int
 getCompletionBriefComment c_void_p:_CXString
 getCompletionChunkCompletionString c_void_p c_int:LP_c_void_p
 getCompletionChunkKind c_void_p c_int:c_int
 getCompletionChunkText c_void_p c_int:_CXString
 getCompletionPriority c_void_p:c_int
 getCString _CXString:c_char_p
 getCursor TranslationUnit SourceLocation:Cursor
 getCursorDefinition Cursor:Cursor:Cursor.from_result
 getCursorDisplayName Cursor:_CXString:_CXString.from_result
 getCursorExtent Cursor:SourceRange
 getCursorLexicalParent Cursor:Cursor:Cursor.from_cursor_result
 getCursorLocation Cursor:SourceLocation
 getCursorReferenced Cursor:Cursor:Cursor.from_result
 getCursorReferenceNameRange Cursor c_uint c_uint:SourceRange
 getCursorSemanticParent Cursor:Cursor:Cursor.from_cursor_result
 getCursorSpelling Cursor:_CXString:_CXString.from_result
 getCursorType Cursor:Type:Type.from_result
 getCursorUSR Cursor:_CXString:_CXString.from_result
 getCXXAccessSpecifier Cursor:c_uint
 getDeclObjCTypeEncoding Cursor:_CXString:_CXString.from_result
 getDiagnostic LP_c_void_p c_uint:LP_c_void_p
 getDiagnosticCategory Diagnostic:c_uint
 getDiagnosticCategoryName c_uint:_CXString:_CXString.from_result
 getDiagnosticFixIt Diagnostic c_uint LP_SourceRange:_CXString:_CXString.from_result
 getDiagnosticLocation Diagnostic:SourceLocation
 getDiagnosticNumFixIts Diagnostic:c_uint
 getDiagnosticNumRanges Diagnostic:c_uint
 getDiagnosticOption Diagnostic LP__CXString:_CXString:_CXString.from_result
 getDiagnosticRange Diagnostic c_uint:SourceRange
 getDiagnosticSeverity Diagnostic:c_int
 getDiagnosticSpelling Diagnostic:_CXString:_CXString.from_result
 getElementType Type:Type:Type.from_result
 getEnumConstantDeclUnsignedValue Cursor:c_ulong
 getEnumConstantDeclValue Cursor:c_long
 getEnumDeclIntegerType Cursor:Type:Type.from_result
 getFile TranslationUnit c_char_p:LP_c_void_p
 getFileName File:_CXString
 getFileTime File:c_uint
 getIBOutletCollectionType Cursor:Type:Type.from_result
 getIncludedFile Cursor:File:File.from_cursor_result
 getInclusions TranslationUnit CFUNCTYPE.<locals>.CFunctionType py_object
 getInstantiationLocation SourceLocation LP_LP_c_void_p LP_c_uint LP_c_uint LP_c_uint
 getLocation TranslationUnit File c_uint c_uint:SourceLocation
 getLocationForOffset TranslationUnit File c_uint:SourceLocation
 getNullCursor:Cursor
 getNumArgTypes Type:c_uint
 getNumCompletionChunks c_void_p:c_int
 getNumDiagnostics LP_c_void_p:c_uint
 getNumElements Type:c_long
 getNumOverloadedDecls Cursor:c_uint
 getOverloadedDecl Cursor c_uint:Cursor:Cursor.from_cursor_result
 getPointeeType Type:Type:Type.from_result
 getRange SourceLocation SourceLocation:SourceRange
 getRangeEnd SourceRange:SourceLocation
 getRangeStart SourceRange:SourceLocation
 getResultType Type:Type:Type.from_result
 getSpecializedCursorTemplate Cursor:Cursor:Cursor.from_cursor_result
 getTemplateCursorKind Cursor:c_uint
 getTokenExtent TranslationUnit Token:SourceRange
 getTokenKind Token:c_uint
 getTokenLocation TranslationUnit Token:SourceLocation
 getTokenSpelling TranslationUnit Token:_CXString:_CXString.from_result
 getTranslationUnitCursor TranslationUnit:Cursor:Cursor.from_result
 getTranslationUnitSpelling TranslationUnit:_CXString:_CXString.from_result
 getTUResourceUsageName c_uint:c_char_p
 getTypeDeclaration Type:Cursor:Cursor.from_result
 getTypedefDeclUnderlyingType Cursor:Type:Type.from_result
 getTypeKindSpelling c_uint:_CXString:_CXString.from_result
 hashCursor Cursor:c_uint
 isAttribute CursorKind:bool
 isConstQualifiedType Type:bool
 isCursorDefinition Cursor:bool
 isDeclaration CursorKind:bool
 isExpression CursorKind:bool
 isFileMultipleIncludeGuarded TranslationUnit File:bool
 isFunctionTypeVariadic Type:bool
 isInvalid CursorKind:bool
 isPODType Type:bool
 isPreprocessing CursorKind:bool
 isReference CursorKind:bool
 isRestrictQualifiedType Type:bool
 isStatement CursorKind:bool
 isTranslationUnit CursorKind:bool
 isUnexposed CursorKind:bool
 isVirtualBase Cursor:bool
 isVolatileQualifiedType Type:bool
 parseTranslationUnit Index c_char_p c_void_p c_int c_void_p c_int c_int:LP_c_void_p
 reparseTranslationUnit TranslationUnit c_int c_void_p c_int:c_int
 saveTranslationUnit TranslationUnit c_char_p c_uint:c_int
 tokenize TranslationUnit SourceRange LP_LP_Token LP_c_uint
 visitChildren Cursor CFUNCTYPE.<locals>.CFunctionType py_object:c_uint
 Cursor_getNumArguments Cursor:c_int
 Cursor_getArgument Cursor c_uint:Cursor:Cursor.from_result
 Cursor_getBriefCommentText Cursor:_CXString:_CXString.from_result
 Cursor_getCommentRange Cursor:SourceRange
 Cursor_getRawCommentText Cursor:_CXString:_CXString.from_result
 Comment_getKind Comment:c_uint
 Comment_getNumChildren Comment:c_uint
 Comment_getChild Comment c_uint:Comment
 Cursor_getParsedComment Cursor:Comment
 TextComment_getText Comment:_CXString:_CXString.from_result").filterMap Signature.ofText?

/-- A signature as it is looked up: what is said last can be left out. -/
def Signature.item (s : Signature) : Value :=
  .list ([.text s.name, .list (s.arguments.map .text)] ++
    (if s.result.isEmpty then [] else [.text s.result]) ++
    (if s.check.isEmpty then [] else [.text s.check]))

end PxdGen.Index
