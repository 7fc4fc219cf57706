import PxdGen.Index.Opening
import PxdGen.Index.Summary
import PxdGen.Job.Header
import PxdGen.Sample.Dump
import PxdGen.Sample.Page
import PxdGen.Sample.Source
import PxdGen.Sample.Unit
/-! # Trials

A trial puts one part of the library to work on a sample of some size. Those that have a source read
are given the compilation units that come back for it, and a trial can be made several times.
-/

namespace PxdGen.Sample

open Decl Decl.Work

inductive Trial where
  | page
  | dump
  | dumpFile
  | unitFile
  | sources
  | survey
deriving DecidableEq, Repr

def nameList (found : List Value) : Work Value := do
  let names ← found.mapM fun v => do
    pure ((← get).graph.sortOf v ++ ":" ++ (← shown (← field v "name")))
  pure (.list ((names.mergeSort fun a b => !decide (b < a)).map .text))

def setOrigin (origin : Origin) : Work Unit :=
  modify fun s => { s with graph := { s.graph with origin := origin } }

def codeOf (found : List Value) : Work Value := do
  let ready ← prepare (.list found)
  pure (.text (← (← draft ready (.text "hdr.h") (.text "_hdr")).code))

section Survey

open Index

def diagnosticFacts (number : Nat) (d : DiagnosticData) : Value :=
  .list [.int d.severity, .text d.spelling, .int (number + 1), .text d.category, .text d.option,
    .text d.disabling, .text d.summary]

def partFacts (number : Nat) (d : DiagnosticData) : List Value :=
  diagnosticFacts number d :: d.ranges.map (fun r => .text r.summary) ++
    d.offered.map fun f => .text f.summary

def tokenFacts (tree : Tree) (t : TokenData) : Except Fault Value := do
  let kind ← tokenKind t.kind
  let range := t.range tree.file
  let owner ← tree.kind (match t.cursor with
    | some i => .numbered i
    | none => .undeclared)
  .ok (.list [.text t.text, .text kind.name, .int t.line.toNat, .text range.summary,
    .text owner.name])

def cursorFacts (tree : Tree) (c : Cursor) : Except Fault Value := do
  let kind ← tree.kind c
  let spelling ← tree.spelling c
  let _ ← tree.typeKind (tree.cursor c).type
  .ok (.list [.text kind.name, .text (spelling.getD "None"), .text (tree.cursor c).display])

/-- The facts of a cursor and of the cursors below it, of which the last comes first. -/
def cursorsFacts (tree : Tree) : Nat → Cursor → Except Fault (List Value)
  | 0, _ => .error .endless
  | fuel + 1, c => do
    let facts ← cursorFacts tree c
    let below ← (tree.cursor c).children.reverse.mapM fun child =>
      cursorsFacts tree fuel (.numbered child)
    .ok (facts :: below.flatten)

def tokenLimit : Nat := 200

/-- The facts of all diagnostics, tokens and cursors: how many there are, the first and the last. -/
def surveyOf (tree : Tree) : Except Fault Value := do
  let parts := tree.diagnostics.toList.zipIdx.flatMap fun (d, i) => partFacts i d
  let tokens ← (tree.tokens.take tokenLimit).mapM (tokenFacts tree)
  let cursors ← cursorsFacts tree (nesting tree) (.numbered tree.root)
  let facts := parts ++ tokens ++ cursors
  .ok (.list [.int facts.length, facts.headD .nothing, facts.getLastD .nothing])

end Survey

namespace Trial

def named? : String → Option Trial
  | "render_cw_ast" => some .page
  | "gccxml_parse" => some .dump
  | "gccxml_pipeline" => some .dumpFile
  | "clang_transform" => some .unitFile
  | "clang_parse" => some .sources
  | "cindex_api" => some .survey
  | _ => none

def sizeName : Trial → String
  | .page => "n_stmts"
  | .dump | .dumpFile | .unitFile => "n_decls"
  | .sources | .survey => "n_blocks"

def sizes : Trial → List Nat
  | .page => [100, 400, 1600]
  | .dump => [15, 60, 240]
  | .dumpFile => [10, 40, 160]
  | .unitFile => [8, 30, 120]
  | .sources | .survey => [3, 12, 40]

def usualSize (trial : Trial) : Nat := trial.sizes.getD 1 0

def sizeOf (trial : Trial) (given : List (String × Value)) : Except Fault Nat :=
  match given with
  | [] => .ok trial.usualSize
  | [(name, v)] =>
    match name == trial.sizeName, v.asInt? with
    | true, some n => .ok n.toNat
    | _, _ => .error .wrongSort
  | _ => .error .wrongSort

def named (name : String) (given : List (String × Value)) : Except Fault (Trial × Nat) := do
  match named? name with
  | none => .error (.missingKey (some ("bench_" ++ name)))
  | some trial => .ok (trial, ← trial.sizeOf given)

def sourceCount : Trial → Nat
  | .sources => 2
  | .survey => 1
  | _ => 0

def run (trial : Trial) (size : Nat) (units : List (Option Index.Tree)) : Work Value := do
  let unit (i : Nat) : Option Index.Tree := (units[i]?).join
  match trial with
  | .page => do pure (.text (← rendering (Pxd.renderModule (Sample.page size))))
  | .dump => do nameList (← Dump.parse (Dump.forReading size))
  | .dumpFile => do pure (.list [← codeOf (← Dump.parse (Dump.forWriting size))])
  | .unitFile => do
    setOrigin .unit
    let file ← Unit.file size
    let count := (← get).graph.entries.countP Unit.namesType
    pure (.list [← codeOf [file], .int count])
  | .sources => do
    setOrigin .unit
    let plain ← Job.openTree "hdr.h" (.list []) (.text "c")
      (some [("hdr.h", Source.blocks size)]) (unit 0)
    let classes ← Job.openTree "hdr.hpp" (.list []) (.text "c++")
      (some [("hdr.hpp", Source.classes)]) (unit 1)
    let plain ← nameList (← Job.tellTree plain)
    pure (.list [plain, ← nameList (← Job.tellTree classes)])
  | .survey => do
    let tree ← Index.parse { path := some "api.h", args := ["-xc"], options := 3,
                             unsaved := [("api.h", some (Source.broken size))] } (unit 0)
    check (surveyOf tree)

structure Findings where
  found : List Value := []
  calls : List Call := []
  /-- the reason for which no more were made -/
  fault : Option Fault := none

def repeated (trial : Trial) (size : Nat) : Nat → List (Option Index.Tree) → Findings
  | 0, _ => {}
  | times + 1, units =>
    let (r, s) := StateT.run (ExceptT.run (trial.run size units)) {}
    match r with
    | .error fault => { calls := s.calls.reverse, fault := some fault }
    | .ok v =>
      let rest := trial.repeated size times (units.drop trial.sourceCount)
      { rest with found := v :: rest.found, calls := s.calls.reverse ++ rest.calls }

end Trial

end PxdGen.Sample
