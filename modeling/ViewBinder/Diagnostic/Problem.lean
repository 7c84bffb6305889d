-- Everything that can be wrong with a template, its resources or its owner, as causes. The kind
-- and the wording of each cause are given here and nowhere else. Tags in the causes are opening
-- tags as they read when the problem was found.
import ViewBinder.Diagnostic.Basic
import ViewBinder.Text.Utf8

namespace ViewBinder

/-- What is wrong. -/
inductive Problem where
  -- markup
  | malformed (detail : Text)
  | elementAfterRoot (name : Text)
  | textOutsideRoot
  | processingInstruction (target : Text)
  | markupDeclaration (word : Text)
  | unboundPrefix (uri : Text)
  | noRoot
  -- consuming elements
  | missingAttribute (name tag : Text)
  | notBoolean (name value tag : Text)
  | notSingleChild (tag : Text) (count : Nat)
  | childInText (child tag : Text)
  | leftoverAttributes (tag : Text) (names : List Text)
  | leftoverChild (child tag : Text)
  | leftoverText (tag content : Text)
  -- attribute values
  | illegalReference (path tag : Text)
  | emptyValue (types : List Text) (tag : Text)
  | emptyAttribute (types : List Text) (name tag : Text)
  | unparsable (value : Text) (types : List Text) (tag : Text)
  | notIntPair (value tag : Text)
  | notConstant (value type : Text) (names : List Text) (tag : Text)
  | notLength (value tag : Text)
  | unknownUnit (unit value tag : Text)
  -- markers
  | notMarker (text : Text)
  | unknownMarker (id : Nat)
  | unresolvedMarker (id : Nat)
  | malformedMarker (text : Text)
  | circularMarker (id : Nat)
  -- fields
  | duplicateField (name first second : Text)
  | secondInitializer (name old new : Text)
  | fieldCycle (names : List Text)
  | unknownField (name tag : Text)
  | noAccessor (segment type path tag : Text)
  | referenceMismatch (path actual : Text) (expected : List Text) (tag : Text)
  -- elements and their types
  | unexpectedBinder (tag : Text)
  | unknownNamespace (uri tag : Text)
  | noClass (name uri : Text)
  | illegalFieldName (name tag : Text)
  | unexpectedIn (child parent : Text)
  | wrongChild (child parent actual expected : Text)
  | noSetter (type setter attr tag : Text)
  | ambiguousSetter (attr tag : Text) (signatures : List Text)
  | noDefaultConstructor (type : Text)
  | noConstructor (type : Text) (params : List Text)
  | noImageConstructor (type : Text)
  | tagLimit (tag : Text) (limit : Int) (parent : Text)
  | noWidgetParameter (signature tag : Text)
  | needsType (tag type : Text)
  -- HTML content
  | elementInText (tag : Text)
  | binderInHtml (tag : Text)
  | widgetInHtml (tag : Text)
  | unexpectedAttribute (attr tag : Text)
  | absentMessageAttribute (declaration name tag : Text)
  | referenceInMessage (name tag : Text)
  | nestedMessage (tag parent : Text)
  | notInText (tag : Text)
  | idAndField (tag : Text)
  | providedDom (tag : Text)
  | providedContent (tag : Text)
  -- panels and lists
  | bothStyleNames (tag : Text)
  | expectedDirection (parent child : Text)
  | onlyOne (name parent : Text)
  | unknownDirection (child parent : Text)
  | secondHeader (item : Text)
  | secondWidget (item child : Text)
  | headerAndWidget (item : Text)
  | onlyChildren (allowed parent child : Text)
  | exactlyOnePair (tag : Text) (pairs : List Text)
  | notAccepted (parent child : Text)
  | secondContent (parent child : Text)
  | secondSubMenu (item : Text)
  | secondTreeWidget (item child : Text)
  -- directives
  | unknownDirective (tag : Text)
  | unknownType (name tag : Text)
  | unknownStyleType (name tag : Text)
  | notSingleAttributes (child parent : Text)
  | notImportable (spec tag : Text)
  | noConstants (type tag : Text)
  | noConstant (type constant tag : Text)
  | duplicateStyleField (name type : Text)
  -- messages
  | illegalPlaceholder (name : Text)
  | duplicatePlaceholder (name message : Text)
  | keyTwice (key : Text)
  -- resources
  | resourceClash (field method : Text)
  | noResourceDirectory (path : Text)
  | missingResource (path : Text)
  | unreadableResource (path reason : Text)
  | reservedClass (cls field accessor : Text)
  | classClash (first second field accessor : Text)
  | styleNotInterface (type : Text)
  | styleLacksClass (field method type : Text)
  | noImageSource (field : Text)
  | unknownRepeatStyle (style field : Text)
  | undecodableImage (path reason : Text)
  | noDataSource (field : Text)
  | generatedTypeClash (reason : Text)
  -- whole units
  | notBinderRoot (uri tag : Text)
  | secondUi (root first second : Text)
  | noUi (root : Text)
  | importCollision (name path : Text)
  | reservedCollision (name : Text)
  | failedWeaving (reason : Text)
  | markerLeft
  -- owners
  | ownerFieldMissing (name owner : Text)
  | ownerFieldType (name actual owner declared : Text)
  | noHandlerMethod (owner method event : Text)
  | handlerWithoutField (method owner : Text)
  | handlerUnknownField (method name : Text)
  | noSuchEvent (name type event method : Text)

namespace Problem

open Text (quote join ofNat ofInt)

/-- The kind of error a problem is. -/
def kind : Problem → ErrorKind
  | malformed _ | elementAfterRoot _ | textOutsideRoot | processingInstruction _
  | markupDeclaration _ | unboundPrefix _ | noRoot | notSingleChild _ _ | childInText _ _
  | leftoverChild _ _ | leftoverText _ _ | unexpectedBinder _ | unknownNamespace _ _
  | unexpectedIn _ _ | wrongChild _ _ _ _ | tagLimit _ _ _ | elementInText _ | binderInHtml _
  | widgetInHtml _ | nestedMessage _ _ | notInText _ | providedDom _ | providedContent _
  | expectedDirection _ _ | onlyOne _ _ | unknownDirection _ _ | secondHeader _
  | secondWidget _ _ | headerAndWidget _ | onlyChildren _ _ _ | notAccepted _ _
  | secondContent _ _ | secondSubMenu _ | secondTreeWidget _ _ | unknownDirective _
  | notSingleAttributes _ _ | notBinderRoot _ _ | secondUi _ _ _ | noUi _ => .structural
  | missingAttribute _ _ | notBoolean _ _ _ | leftoverAttributes _ _ | illegalReference _ _
  | emptyValue _ _ | emptyAttribute _ _ _ | unparsable _ _ _ | notIntPair _ _
  | notConstant _ _ _ _ | notLength _ _ | unknownUnit _ _ _ | referenceMismatch _ _ _ _
  | illegalFieldName _ _ | noSetter _ _ _ _ | unexpectedAttribute _ _
  | absentMessageAttribute _ _ _ | referenceInMessage _ _ | idAndField _ | bothStyleNames _
  | exactlyOnePair _ _ | notImportable _ _ | illegalPlaceholder _ | duplicatePlaceholder _ _
  | unknownRepeatStyle _ _ | noDataSource _ => .attributes
  | duplicateField _ _ _ | fieldCycle _ | unknownField _ _ | noAccessor _ _ _ _ | noClass _ _
  | ambiguousSetter _ _ _ | noDefaultConstructor _ | noConstructor _ _ | noImageConstructor _
  | needsType _ _ | unknownType _ _ | unknownStyleType _ _ | noConstants _ _ | noConstant _ _ _
  | duplicateStyleField _ _ | keyTwice _ | importCollision _ _ | reservedCollision _
  | ownerFieldMissing _ _ | ownerFieldType _ _ _ _ | noHandlerMethod _ _ _
  | handlerWithoutField _ _ | handlerUnknownField _ _ | noSuchEvent _ _ _ _ => .symbol
  | resourceClash _ _ | noResourceDirectory _ | missingResource _ | unreadableResource _ _
  | reservedClass _ _ _ | classClash _ _ _ _ | styleNotInterface _ | styleLacksClass _ _ _
  | noImageSource _ | undecodableImage _ _ | generatedTypeClash _ => .resource
  | notMarker _ | unknownMarker _ | unresolvedMarker _ | malformedMarker _ | circularMarker _
  | secondInitializer _ _ _ | noWidgetParameter _ _ | failedWeaving _ | markerLeft => .internal

/-- The wording of a problem. -/
def message : Problem → Text
  | malformed detail => "Malformed markup: " ++ detail
  | elementAfterRoot name => "Unexpected element <" ++ name ++ "> after the root element"
  | textOutsideRoot => "Unexpected text outside the root element"
  | processingInstruction target => "Unexpected processing instruction <?" ++ target ++ "?>"
  | markupDeclaration word => "Unexpected directive <!" ++ word ++ ">"
  | unboundPrefix uri => "Unbound namespace prefix " ++ quote uri
  | noRoot => "Template has no root element"
  | missingAttribute name tag => "Missing required attribute " ++ quote name ++ " in " ++ tag
  | notBoolean name value tag =>
    name ++ " must be \"true\" or \"false\", found " ++ quote value ++ " in " ++ tag
  | notSingleChild tag count => tag ++ " must have a single child element, found " ++ ofNat count
  | childInText child tag =>
    "Illegal child " ++ child ++ " in a text-only context in " ++ tag
  | leftoverAttributes tag names =>
    "Unexpected attributes in element " ++ tag ++ ": " ++ join ", " names
  | leftoverChild child tag => "Found unexpected child element " ++ child ++ " in " ++ tag
  | leftoverText tag content => "Unexpected text in element " ++ tag ++ ": " ++ quote content
  | illegalReference path tag =>
    "Illegal field reference \x7b" ++ path ++ "\x7d in " ++ tag
  | emptyValue types tag =>
    "Cannot use empty value as type " ++ join ", " types ++ " in " ++ tag
  | emptyAttribute types name tag =>
    "Cannot use empty value as type " ++ join ", " types ++ " for attribute " ++ quote name ++
      " in " ++ tag
  | unparsable value types tag =>
    "Cannot parse value: " ++ quote value ++ " as type " ++ join ", " types ++ " in " ++ tag
  | notIntPair value tag =>
    "Unable to parse " ++ quote value ++ " as a pair of integers in " ++ tag
  | notConstant value type names tag =>
    quote value ++ " is not a constant of " ++ type ++ " (expected one of " ++
      join ", " names ++ ") in " ++ tag
  | notLength value tag => "Unable to parse " ++ quote value ++ " as a length in " ++ tag
  | unknownUnit unit value tag =>
    "Unknown unit " ++ quote unit ++ " in " ++ quote value ++ " in " ++ tag
  | notMarker text => quote text ++ " is not a token"
  | unknownMarker id => "unknown token " ++ ofNat id
  | unresolvedMarker id => "unresolved token " ++ ofNat id
  | malformedMarker text => "malformed token " ++ quote text
  | circularMarker id => "token " ++ ofNat id ++ " refers to itself"
  | duplicateField name first second =>
    "Duplicate declaration of field " ++ quote name ++ " (" ++ first ++ " and " ++ second ++ ")"
  | secondInitializer name old new =>
    "Second attempt to set initializer for field " ++ quote name ++ ", from " ++ quote old ++
      " to " ++ quote new
  | fieldCycle names => "Fields depend on each other in a cycle: " ++ join ", " names
  | unknownField name tag => "Reference to unknown field " ++ quote name ++ " in " ++ tag
  | noAccessor segment type path tag =>
    "No public accessor for " ++ quote segment ++ " in type " ++ type ++ ", referenced by \x7b" ++
      path ++ "\x7d in " ++ tag
  | referenceMismatch path actual expected tag =>
    "\x7b" ++ path ++ "\x7d is " ++ actual ++ ", expected " ++ join " or " expected ++ " in " ++ tag
  | unexpectedBinder tag => "Unexpected binder element " ++ tag
  | unknownNamespace uri tag => "Unknown namespace " ++ quote uri ++ " of element " ++ tag
  | noClass name uri => "No class matching " ++ quote name ++ " in " ++ uri
  | illegalFieldName name tag => "Illegal field name " ++ quote name ++ " in " ++ tag
  | unexpectedIn child parent => "Unexpected " ++ child ++ " in " ++ parent
  | wrongChild child parent actual expected =>
    child ++ " in " ++ parent ++ " is a " ++ actual ++ ", expected " ++ expected
  | noSetter type setter attr tag =>
    "Class " ++ type ++ " has no appropriate " ++ setter ++ "() method for attribute " ++
      quote attr ++ " in " ++ tag
  | ambiguousSetter attr tag signatures =>
    "Ambiguous setter for attribute " ++ quote attr ++ " of " ++ tag ++ ": " ++
      join ", " signatures
  | noDefaultConstructor type =>
    type ++ " has no default (zero args) constructor; " ++
      "declare a factory on the owner, mark a constructor or provide the field"
  | noConstructor type params =>
    type ++ " has no constructor taking (" ++ join ", " params ++ ")"
  | noImageConstructor type => type ++ " has no constructor taking an ImageResource"
  | tagLimit tag limit parent =>
    "Can only use the <" ++ tag ++ "> tag " ++ ofInt limit ++ " time(s) in " ++ parent
  | noWidgetParameter signature tag =>
    "Method " ++ signature ++ " for <" ++ tag ++ "> takes no widget"
  | needsType tag type => tag ++ " needs the type " ++ type
  | elementInText tag => "Unexpected element " ++ tag ++ " in text content"
  | binderInHtml tag => "Unexpected " ++ tag ++ " in HTML content"
  | widgetInHtml tag => "Found widget " ++ tag ++ " in an HTML context that cannot hold widgets"
  | unexpectedAttribute attr tag => "Unexpected attribute " ++ attr ++ " in " ++ tag
  | absentMessageAttribute declaration name tag =>
    declaration ++ " names attribute " ++ quote name ++ ", which " ++ tag ++ " does not have"
  | referenceInMessage name tag =>
    "Attribute " ++ quote name ++ " of " ++ tag ++
      " holds a field reference and cannot be a message"
  | nestedMessage tag parent => "Messages cannot be nested: " ++ tag ++ " in " ++ parent
  | notInText tag => tag ++ " is not allowed in text content"
  | idAndField tag => "Cannot declare id and ui:field on the same element " ++ tag
  | providedDom tag => "DOM element " ++ tag ++ " cannot be provided"
  | providedContent tag =>
    tag ++ " builds its content from the template and cannot be provided"
  | bothStyleNames tag => "Cannot set both styleName and stylePrimaryName in " ++ tag
  | expectedDirection parent child =>
    "Expected a direction tag in " ++ parent ++ ", found " ++ child
  | onlyOne name parent => "Only one <" ++ name ++ "> is allowed in " ++ parent
  | unknownDirection child parent => "Unknown direction tag " ++ child ++ " in " ++ parent
  | secondHeader item => item ++ " may only have one header"
  | secondWidget item child => item ++ " may only have one widget, found " ++ child
  | headerAndWidget item => item ++ " must have a header and a widget"
  | onlyChildren allowed parent child =>
    "Only " ++ allowed ++ " children are allowed in " ++ parent ++ ", found " ++ child
  | exactlyOnePair tag pairs => tag ++ " must set exactly one of " ++ join ", " pairs
  | notAccepted parent child => parent ++ " does not accept " ++ child
  | secondContent parent child => parent ++ " may only have one content widget, found " ++ child
  | secondSubMenu item => item ++ " may only have one sub menu"
  | secondTreeWidget item child => item ++ " may only hold one widget, found " ++ child
  | unknownDirective tag => "Unknown binder element " ++ tag
  | unknownType name tag => "Unknown type " ++ quote name ++ " in " ++ tag
  | unknownStyleType name tag => "Unknown style type " ++ quote name ++ " in " ++ tag
  | notSingleAttributes child parent =>
    "Unexpected " ++ child ++ " in " ++ parent ++ ", expected a single ui:attributes"
  | notImportable spec tag =>
    "Cannot import " ++ quote spec ++ " in " ++ tag ++ ", expected <type>.<constant> or <type>.*"
  | noConstants type tag => type ++ " has no constants to import in " ++ tag
  | noConstant type constant tag => type ++ " has no constant " ++ constant ++ " in " ++ tag
  | duplicateStyleField name type =>
    "Duplicate declaration of field " ++ quote name ++ " (" ++ type ++ ")"
  | illegalPlaceholder name => "Illegal placeholder name " ++ quote name
  | duplicatePlaceholder name message =>
    "Duplicate placeholder name " ++ quote name ++ " in message " ++ quote message
  | keyTwice key =>
    "Message key " ++ quote key ++ " declared twice with different descriptions"
  | resourceClash field method =>
    "Resource " ++ quote field ++ " collides with another resource named " ++ method
  | noResourceDirectory path =>
    "Unable to find resource " ++ quote path ++ ": no resource directory"
  | missingResource path => "Unable to find resource " ++ quote path
  | unreadableResource path reason =>
    "Unable to read resource " ++ quote path ++ ": " ++ reason
  | reservedClass cls field accessor =>
    "Class " ++ quote cls ++ " of style " ++ quote field ++ " collides with the " ++ accessor ++
      " method"
  | classClash first second field accessor =>
    "Class names " ++ quote first ++ " and " ++ quote second ++ " of style " ++ quote field ++
      " both map to " ++ accessor ++ "()"
  | styleNotInterface type => "Style type " ++ type ++ " must be an interface"
  | styleLacksClass field method type =>
    "Style " ++ quote field ++ " has no class for method " ++ method ++ " of " ++ type
  | noImageSource field =>
    "No src for image " ++ quote field ++ " and no file named after it"
  | unknownRepeatStyle style field =>
    "Unknown repeatStyle " ++ quote style ++ " for image " ++ quote field
  | undecodableImage path reason =>
    "Unable to decode image " ++ quote path ++ ": " ++ reason
  | noDataSource field =>
    "Missing required attribute \"src\" for data " ++ quote field
  | generatedTypeClash reason => reason
  | notBinderRoot uri tag =>
    "Root element must be ui:UiBinder in namespace " ++ uri ++ ", found " ++ tag
  | secondUi root first second =>
    root ++ " may contain a single ui element, found " ++ first ++ " and " ++ second
  | noUi root => root ++ " has no ui element"
  | importCollision name path =>
    "Field " ++ quote name ++ " collides with the import of " ++ path
  | reservedCollision name => "Field " ++ quote name ++ " collides with a generated identifier"
  | failedWeaving reason => reason
  | markerLeft => "Unresolved token left in generated program"
  | ownerFieldMissing name owner =>
    "Field " ++ quote name ++ " of " ++ owner ++ " has no corresponding field in the template"
  | ownerFieldType name actual owner declared =>
    "Template field " ++ quote name ++ " is " ++ actual ++ ", but " ++ owner ++
      " declares it as " ++ declared
  | noHandlerMethod owner method event =>
    owner ++ " has no method " ++ method ++ " to handle " ++ event ++ " events"
  | handlerWithoutField method owner =>
    "Handler " ++ method ++ " of " ++ owner ++ " names no template field"
  | handlerUnknownField method name =>
    "Handler " ++ method ++ " refers to " ++ quote name ++ ", which is not a template field"
  | noSuchEvent name type event method =>
    "Field " ++ quote name ++ " of type " ++ type ++ " does not fire " ++ event ++
      " events for handler " ++ method

/-- The problem as a failure at a place. -/
def failure (p : Problem) (place : Option Location) : Failure :=
  .one (Diagnostic.make .error p.kind place p.message)

end Problem

/-- Ends the work with a problem at a place. -/
def failAt {σ α : Type} (place : Option Location) (p : Problem) : Work σ α :=
  throw (p.failure place)

namespace Log

/-- Reports a problem and goes on. -/
def problem (log : Log) (place : Option Location) (p : Problem) : Log :=
  log.error p.kind place p.message

end Log

end ViewBinder
