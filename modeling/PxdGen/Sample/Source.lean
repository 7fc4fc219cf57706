/-! # Sample sources

Headers with any number of blocks of C declarations, a header of C++ and one that is broken.
-/

namespace PxdGen.Sample.Source

/-- The lines of a block, where `@` stands for its number. -/
def blockLines : List String :=
  ["",
    "#define CONST_@ @",
    "typedef long long LL_@;",
    "typedef int IntArr_@[8];",
    "typedef const int CInt_@;",
    "struct St_@ \x7b",
    "    int a;",
    "    LL_@ b;",
    "    double *p;",
    "    char buf[16];",
    "    struct Inner_@ \x7b int z; \x7d inner;",
    "\x7d;",
    "typedef struct St_@ StAlias_@;",
    "typedef struct \x7b int q; \x7d AnonSt_@;",
    "union Un_@ \x7b int i; double d; \x7d;",
    "typedef union \x7b float f; \x7d AnonUn_@;",
    "enum En_@ \x7b EN_@_A, EN_@_B = 3 \x7d;",
    "typedef enum \x7b TE_@_A, TE_@_B \x7d AnonEn_@;",
    "typedef enum En_@ EnAlias_@;",
    "int fn_@(double x, int *y, struct St_@ *s);",
    "float (*fnptr_@(int foo))(float, float);",
    "typedef int (*Callback_@)(double, AnonEn_@);",
    "extern int gvar_@;"]

def block (i : Nat) : String :=
  String.join (blockLines.map fun line => line.replace "@" (Nat.repr i) ++ "\n")

def blocks (count : Nat) : String := String.join ((List.range count).map block)

def classLines : List String :=
  ["",
    "namespace ns \x7b",
    "    class Shape \x7b",
    "    public:",
    "        int x, y;",
    "        Shape(int a, int b);",
    "        int area();",
    "        void move(int dx, int& dy);",
    "    \x7d;",
    "    template<typename T> class Box \x7b public: T val; T get(); \x7d;",
    "    template<typename T> T ident(T v);",
    "\x7d"]

def classes : String := blocks 2 ++ String.join (classLines.map (· ++ "\n"))

/-- Blocks with a declaration behind them that is cut off. -/
def broken (count : Nat) : String := blocks count ++ "\nint broken("

end PxdGen.Sample.Source
