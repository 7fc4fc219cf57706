import PxdGen.Dump.Element
import PxdGen.Xml.Event
/-! # Reading a dump

The elements of a dump are taken in as the document is read, so that an offence of the document
stops the work only after everything before it has been taken in.
-/

namespace PxdGen.Dump

open Decl

def takeEvent : Xml.Event → Work Unit
  | .start tag attrs => startElement tag (.record (attrs.map fun (n, s) => (n, .text s)))
  | .stop tag text => do
    if !text.isEmpty then addText (.text text)
    endElement tag

def readDocument (document : String) : Work Unit := do
  let reading ← Xml.read document
  reading.events.forM takeEvent
  if !reading.isWellFormed then throw .malformedMarkup

def parse (document : String) : Work (List Value) := do
  readDocument document
  result

end PxdGen.Dump
