import PxdGen.Fault
/-! # Kinds of an index

An index of source code sorts its cursors, types, comments and tokens into kinds, which have numbers
and names. A number that has no kind is refused; a negative number counts from behind the greatest.
-/

namespace PxdGen.Index

structure KindTable where
  label : String
  /-- ascending by number -/
  entries : List (Nat × String)
deriving Repr

structure Kind where
  table : String
  value : Nat
  name : String
deriving DecidableEq, Repr

/-- Numbers of kinds are kept in 32 bits, with a sign. -/
def kindNumber (n : Int) : Int := n.bmod (Nat.pow 2 32)

namespace KindTable

/-- One more than the greatest number. -/
def size (t : KindTable) : Nat := (t.entries.map (·.1 + 1)).foldl max 0

def name? (t : KindTable) (n : Nat) : Option String := t.entries.lookup n

def number? (t : KindTable) (name : String) : Option Nat :=
  (t.entries.find? (·.2 == name)).map (·.1)

/-- The place that a number stands for, if there is one up to the greatest number. -/
def place? (t : KindTable) (id : Int) : Option Nat :=
  if 0 ≤ id then some id.toNat
  else if -t.size ≤ id then some (t.size + id).toNat
  else none

def unknown (t : KindTable) (id : Int) : Fault :=
  if t.label == "CursorKind" then .unknownCursorKind else .unknownTypeKind id

def find (t : KindTable) (id : Int) : Except Fault Kind :=
  match t.place? id with
  | none => .error .outOfRange
  | some n =>
    match t.name? n with
    | some name => .ok ⟨t.label, n, name⟩
    | none => .error (t.unknown id)

/-- Whether a new kind can have a number. -/
def claim (t : KindTable) (id : Int) : Except Fault Unit :=
  match t.place? id with
  | none => .error .outOfRange
  | some n => if (t.name? n).isSome then .error (.kindTaken t.label) else .ok ()

def add (t : KindTable) (id : Int) (name : String) : Except Fault KindTable := do
  t.claim id
  let n := (t.place? id).getD 0
  .ok { t with entries := t.entries.takeWhile (·.1 < n) ++ (n, name) ::
          t.entries.dropWhile (·.1 < n) }

end KindTable

namespace Kind

def text (k : Kind) : String := k.table ++ "." ++ k.name

/-! ### Groups of kinds of cursors -/

def isDeclaration (k : Kind) : Bool := 1 ≤ k.value && k.value ≤ 39

def isReference (k : Kind) : Bool := 40 ≤ k.value && k.value ≤ 49

def isInvalid (k : Kind) : Bool := 70 ≤ k.value && k.value ≤ 73

def isExpression (k : Kind) : Bool := 100 ≤ k.value && k.value ≤ 199

def isStatement (k : Kind) : Bool := 200 ≤ k.value && k.value ≤ 299

def isUnit (k : Kind) : Bool := k.value == 300

def isAttribute (k : Kind) : Bool := 400 ≤ k.value && k.value ≤ 499

def isPreprocessing (k : Kind) : Bool := 500 ≤ k.value && k.value ≤ 599

/-- The kinds of what is known to be there and not more. -/
def isUnexposed (k : Kind) : Bool := [1, 100, 200, 400].contains k.value

end Kind

/-- Names with numbers from the given one on. -/
def numbered (first : Nat) (names : List String) : List (Nat × String) :=
  names.mapIdx fun i name => (first + i, name)

def cursorKinds : KindTable := ⟨"CursorKind",
  numbered 1 ["UNEXPOSED_DECL", "STRUCT_DECL", "UNION_DECL", "CLASS_DECL", "ENUM_DECL",
    "FIELD_DECL", "ENUM_CONSTANT_DECL", "FUNCTION_DECL", "VAR_DECL", "PARM_DECL",
    "OBJC_INTERFACE_DECL", "OBJC_CATEGORY_DECL", "OBJC_PROTOCOL_DECL", "OBJC_PROPERTY_DECL",
    "OBJC_IVAR_DECL", "OBJC_INSTANCE_METHOD_DECL", "OBJC_CLASS_METHOD_DECL",
    "OBJC_IMPLEMENTATION_DECL", "OBJC_CATEGORY_IMPL_DECL", "TYPEDEF_DECL", "CXX_METHOD",
    "NAMESPACE", "LINKAGE_SPEC", "CONSTRUCTOR", "DESTRUCTOR", "CONVERSION_FUNCTION",
    "TEMPLATE_TYPE_PARAMETER", "TEMPLATE_NON_TYPE_PARAMETER", "TEMPLATE_TEMPLATE_PARAMETER",
    "FUNCTION_TEMPLATE", "CLASS_TEMPLATE", "CLASS_TEMPLATE_PARTIAL_SPECIALIZATION",
    "NAMESPACE_ALIAS", "USING_DIRECTIVE", "USING_DECLARATION", "TYPE_ALIAS_DECL",
    "OBJC_SYNTHESIZE_DECL", "OBJC_DYNAMIC_DECL", "CXX_ACCESS_SPEC_DECL", "OBJC_SUPER_CLASS_REF",
    "OBJC_PROTOCOL_REF", "OBJC_CLASS_REF", "TYPE_REF", "CXX_BASE_SPECIFIER", "TEMPLATE_REF",
    "NAMESPACE_REF", "MEMBER_REF", "LABEL_REF", "OVERLOADED_DECL_REF"] ++
  numbered 70 ["INVALID_FILE", "NO_DECL_FOUND", "NOT_IMPLEMENTED", "INVALID_CODE"] ++
  numbered 100 ["UNEXPOSED_EXPR", "DECL_REF_EXPR", "MEMBER_REF_EXPR", "CALL_EXPR",
    "OBJC_MESSAGE_EXPR", "BLOCK_EXPR", "INTEGER_LITERAL", "FLOATING_LITERAL",
    "IMAGINARY_LITERAL", "STRING_LITERAL", "CHARACTER_LITERAL", "PAREN_EXPR", "UNARY_OPERATOR",
    "ARRAY_SUBSCRIPT_EXPR", "BINARY_OPERATOR", "COMPOUND_ASSIGNMENT_OPERATOR",
    "CONDITIONAL_OPERATOR", "CSTYLE_CAST_EXPR", "COMPOUND_LITERAL_EXPR", "INIT_LIST_EXPR",
    "ADDR_LABEL_EXPR", "StmtExpr", "GENERIC_SELECTION_EXPR", "GNU_NULL_EXPR",
    "CXX_STATIC_CAST_EXPR", "CXX_DYNAMIC_CAST_EXPR", "CXX_REINTERPRET_CAST_EXPR",
    "CXX_CONST_CAST_EXPR", "CXX_FUNCTIONAL_CAST_EXPR", "CXX_TYPEID_EXPR",
    "CXX_BOOL_LITERAL_EXPR", "CXX_NULL_PTR_LITERAL_EXPR", "CXX_THIS_EXPR", "CXX_THROW_EXPR",
    "CXX_NEW_EXPR", "CXX_DELETE_EXPR", "CXX_UNARY_EXPR", "OBJC_STRING_LITERAL",
    "OBJC_ENCODE_EXPR", "OBJC_SELECTOR_EXPR", "OBJC_PROTOCOL_EXPR", "OBJC_BRIDGE_CAST_EXPR",
    "PACK_EXPANSION_EXPR", "SIZE_OF_PACK_EXPR"] ++
  numbered 200 ["UNEXPOSED_STMT", "LABEL_STMT", "COMPOUND_STMT", "CASE_STMT", "DEFAULT_STMT",
    "IF_STMT", "SWITCH_STMT", "WHILE_STMT", "DO_STMT", "FOR_STMT", "GOTO_STMT",
    "INDIRECT_GOTO_STMT", "CONTINUE_STMT", "BREAK_STMT", "RETURN_STMT", "ASM_STMT",
    "OBJC_AT_TRY_STMT", "OBJC_AT_CATCH_STMT", "OBJC_AT_FINALLY_STMT", "OBJC_AT_THROW_STMT",
    "OBJC_AT_SYNCHRONIZED_STMT", "OBJC_AUTORELEASE_POOL_STMT", "OBJC_FOR_COLLECTION_STMT",
    "CXX_CATCH_STMT", "CXX_TRY_STMT", "CXX_FOR_RANGE_STMT", "SEH_TRY_STMT", "SEH_EXCEPT_STMT",
    "SEH_FINALLY_STMT"] ++
  numbered 230 ["NULL_STMT", "DECL_STMT"] ++
  numbered 300 ["TRANSLATION_UNIT"] ++
  numbered 400 ["UNEXPOSED_ATTR", "IB_ACTION_ATTR", "IB_OUTLET_ATTR",
    "IB_OUTLET_COLLECTION_ATTR", "CXX_FINAL_ATTR", "CXX_OVERRIDE_ATTR", "ANNOTATE_ATTR",
    "ASM_LABEL_ATTR"] ++
  numbered 500 ["PREPROCESSING_DIRECTIVE", "MACRO_DEFINITION", "MACRO_INSTANTIATION",
    "INCLUSION_DIRECTIVE"]⟩

def typeKinds : KindTable := ⟨"TypeKind",
  numbered 0 ["INVALID", "UNEXPOSED", "VOID", "BOOL", "CHAR_U", "UCHAR", "CHAR16", "CHAR32",
    "USHORT", "UINT", "ULONG", "ULONGLONG", "UINT128", "CHAR_S", "SCHAR", "WCHAR", "SHORT",
    "INT", "LONG", "LONGLONG", "INT128", "FLOAT", "DOUBLE", "LONGDOUBLE", "NULLPTR", "OVERLOAD",
    "DEPENDENT", "OBJCID", "OBJCCLASS", "OBJCSEL"] ++
  numbered 100 ["COMPLEX", "POINTER", "BLOCKPOINTER", "LVALUEREFERENCE", "RVALUEREFERENCE",
    "RECORD", "ENUM", "TYPEDEF", "OBJCINTERFACE", "OBJCOBJECTPOINTER", "FUNCTIONNOPROTO",
    "FUNCTIONPROTO", "CONSTANTARRAY", "VECTOR"]⟩

def commentKinds : KindTable := ⟨"CommentKind",
  numbered 0 ["NULL", "TEXT", "INLINE_COMMAND", "HTML_START_TAG", "HTML_END_TAG", "PARAGRAPH",
    "BLOCK_COMMAND", "PARAM_COMMAND", "TEMPLATE_PARAM_COMMAND", "VERBATIM_BLOCK_COMMAND",
    "VERBATIM_BLOCK_LINE", "VERBATIM_LINE", "FULL_COMMENT"]⟩

def tokenKinds : KindTable := ⟨"TokenKind",
  numbered 0 ["PUNCTUATION", "KEYWORD", "IDENTIFIER", "LITERAL", "COMMENT"]⟩

def KindTable.token (t : KindTable) (value : Int) : Except Fault Kind :=
  if value < 0 then .error (.unknownTokenKind value)
  else
    match t.name? value.toNat with
    | some name => .ok ⟨t.label, value.toNat, name⟩
    | none => .error (.unknownTokenKind value)

def tokenKind (value : Int) : Except Fault Kind := tokenKinds.token value

/-- A table with a kind for every number from `low` to below `bound` that has none. -/
def KindTable.extend (t : KindTable) (low bound : Nat) : KindTable :=
  let missing := (List.range bound).filter fun n => low ≤ n && (t.name? n).isNone
  let added := missing.map fun n => (n, "_EXTRA_" ++ toString n)
  ⟨t.label, (t.entries ++ added).mergeSort fun a b => a.1 ≤ b.1⟩

end PxdGen.Index
