import TryResources.Filter
import TryResources.Listing
import TryResources.Yaml.Decode

/-!
# Listings and options as documents

How a listing, and the options of the filter, are written as YAML documents. A listing has a field
`methods`; a method has `name` and `code` and may have `desc` and `try_catch`; an entry of the
exception table has `start`, `end` and `handler` and may have `type`. Options are the two fields
`javac` and `ecj`, both true unless they are given.
-/

namespace TryResources

open Yaml

/-- Decodes an entry of an exception table. -/
def Block.decode (n : Yaml.Node) : Decoder (Block String) := do
  let fields ← Decoder.fields ["start", "end", "handler", "type"] n
  let start ← Decoder.required fields "start" Decoder.text
  let stop ← Decoder.required fields "end" Decoder.text
  let handler ← Decoder.required fields "handler" Decoder.text
  let catchType ← Decoder.optional fields "type" none Decoder.optionalText
  return { start, stop, handler, catchType }

/-- Decodes the description of a method. -/
def MethodListing.decode (n : Yaml.Node) : Decoder MethodListing := do
  let fields ← Decoder.fields ["name", "desc", "code", "try_catch"] n
  let name ← Decoder.required fields "name" Decoder.text
  let desc ← Decoder.optional fields "desc" "()V" Decoder.text
  let code ← Decoder.required fields "code" (Decoder.list Decoder.text)
  let table ← Decoder.optional fields "try_catch" [] (Decoder.list Block.decode)
  return { name, desc, code, table }

/-- Decodes a listing. -/
def Listing.decode (n : Yaml.Node) : Decoder Listing := do
  let fields ← Decoder.fields ["methods"] n
  let methods ← Decoder.required fields "methods" (Decoder.list MethodListing.decode)
  return { methods }

/-- The listing that a text holds. -/
def Listing.ofText (text : String) : Except Yaml.Fault Listing :=
  Decoder.ofText Listing.decode text

/-- Decodes options. -/
def Options.decode (n : Yaml.Node) : Decoder Options := do
  let fields ← Decoder.fields ["javac", "ecj"] n
  let javac ← Decoder.optional fields "javac" true Decoder.truth
  let ecj ← Decoder.optional fields "ecj" true Decoder.truth
  return { javac, ecj }

/-- The options that a text holds. -/
def Options.ofText (text : String) : Except Yaml.Fault Options :=
  Decoder.ofText Options.decode text

/-- A reason to refuse the text of a listing. -/
inductive ListingError
  /-- The text holds no listing. -/
  | document (fault : Yaml.Fault)
  /-- A method of the listing is faulty. -/
  | method (error : MethodError)
  deriving Repr, DecidableEq

/-- The methods that the text of a listing describes: all of them, or the first reason why not. -/
def Method.ofText (text : String) : Except ListingError (List Method) := do
  let listing ← (Listing.ofText text).mapError .document
  listing.toMethods.mapError .method

end TryResources
