import SchemaServer.Wire.Shape

/-! The shapes of the parameters of methods. Many parameters share their object with a place in a document
and with tokens under which a client hears of the progress of its request. -/
namespace SchemaServer.Shape

/-! ## Shared members -/

def placeParams : Shape :=
  record "TextDocumentPositionParams" [required "textDocument" document, required "position" position]

def progress : Shape := record "WorkDoneProgressParams" [optional "workDoneToken" numberOrText]

def partialResults : Shape := record "PartialResultParams" [optional "partialResultToken" numberOrText]

/-- Members of their own, then the two tokens. -/
def tracked (name : String) (members : List (String × Bool × Shape)) : Shape :=
  joined name [record name members, progress, partialResults]

/-- A place in a document and members of their own, then the token of progress. -/
def placed (name : String) (members : List (String × Bool × Shape)) : Shape :=
  joined name [record name members, placeParams, progress]

def placedTracked (name : String) (members : List (String × Bool × Shape)) : Shape :=
  joined name [record name members, placeParams, progress, partialResults]

/-! ## Methods of the server -/

def openParams : Shape := record "DidOpenTextDocumentParams" [
  required "textDocument" (record "TextDocumentItem" [required "uri" uri, required "languageId" text,
    required "version" int32, required "text" text])]

def changeParams : Shape := record "DidChangeTextDocumentParams" [
  required "textDocument"
    (record "VersionedTextDocumentIdentifier" [required "uri" uri, required "version" int32]),
  required "contentChanges" (list (record "TextDocumentContentChangeEvent"
    [optional "range" range, optional "rangeLength" nat32, required "text" text]))]

def closeParams : Shape := record "DidCloseTextDocumentParams" [required "textDocument" document]

def configurationParams : Shape := record "DidChangeConfigurationParams" [required "settings" any]

def readyParams : Shape := record "InitializedParams" []

def renameParams : Shape := placed "RenameParams" [required "newName" text]

def definitionParams : Shape := placedTracked "GotoDefinitionParams" []

def completionParams : Shape := placedTracked "CompletionParams" [
  optional "context" (record "CompletionContext"
    [required "triggerKind" int32, optional "triggerCharacter" text])]

def hoverParams : Shape := placed "HoverParams" []

def codeActionParams : Shape := tracked "CodeActionParams" [
  required "textDocument" document,
  required "range" range,
  required "context" (record "CodeActionContext" [required "diagnostics" (list diagnostic),
    optional "only" (list text), optional "triggerKind" int32])]

def formattingOptions : Shape :=
  let members := [required "tabSize" nat32, required "insertSpaces" flag,
    optional "trimTrailingWhitespace" flag, optional "insertFinalNewline" flag,
    optional "trimFinalNewlines" flag]
  joined "FormattingOptions" [record "FormattingOptions" members,
    others (members.map Prod.fst) (union "FormattingProperty" [flag, int32, text])]

def formattingParams : Shape := joined "DocumentFormattingParams" [
  record "DocumentFormattingParams"
    [required "textDocument" document, required "options" formattingOptions],
  progress]

/-! ## The start of a server -/

def codeActionAbilities : Shape := record "CodeActionClientCapabilities" [
  optional "dynamicRegistration" flag,
  optional "codeActionLiteralSupport" (record "CodeActionLiteralSupport" [
    required "codeActionKind"
      (record "CodeActionKindLiteralSupport" [required "valueSet" (list text)])]),
  optional "isPreferredSupport" flag,
  optional "disabledSupport" flag,
  optional "dataSupport" flag,
  optional "resolveSupport"
    (record "CodeActionCapabilityResolveSupport" [required "properties" (list text)]),
  optional "honorsChangeAnnotations" flag]

/-- What a client can do; abilities that do not matter are objects with any members. -/
def abilities : Shape := record "ClientCapabilities" [
  optional "workspace" (joined "WorkspaceClientCapabilities" []),
  optional "textDocument" (joined "TextDocumentClientCapabilities"
    [record "TextDocumentClientCapabilities" [optional "codeAction" codeActionAbilities]]),
  optional "notebookDocument" (joined "NotebookDocumentClientCapabilities" []),
  optional "window" (joined "WindowClientCapabilities" []),
  optional "general" (joined "GeneralClientCapabilities" []),
  optional "experimental" any]

def startParams : Shape := record "InitializeParams" [
  optional "processId" nat32,
  optional "rootPath" text,
  optional "rootUri" uri,
  optional "initializationOptions" any,
  required "capabilities" abilities,
  optional "trace" (word ["off", "messages", "verbose"]),
  optional "workspaceFolders"
    (list (record "WorkspaceFolder" [required "uri" uri, required "name" text])),
  optional "clientInfo" (record "ClientInfo" [required "name" text, optional "version" text]),
  optional "locale" text]

/-! ## Methods that the server lacks -/

def documentParams (name : String) : Shape := tracked name [required "textDocument" document]

def partParams (name : String) (members : List (String × Bool × Shape)) : Shape :=
  joined name [record name ([required "textDocument" document, required "range" range] ++ members), progress]

def filesParams (name fileName : String) (members : List String) : Shape :=
  record name [required "files" (list (record fileName (members.map (required · text))))]

def missingRequests : List (String × Shape) := [
  ("textDocument/willSaveWaitUntil", record "WillSaveTextDocumentParams"
    [required "textDocument" document, required "reason" int32]),
  ("textDocument/declaration", definitionParams),
  ("textDocument/typeDefinition", definitionParams),
  ("textDocument/implementation", definitionParams),
  ("textDocument/references", placedTracked "ReferenceParams"
    [required "context" (record "ReferenceContext" [required "includeDeclaration" flag])]),
  ("textDocument/prepareCallHierarchy", placed "CallHierarchyPrepareParams" []),
  ("callHierarchy/incomingCalls", tracked "CallHierarchyIncomingCallsParams" [required "item" any]),
  ("callHierarchy/outgoingCalls", tracked "CallHierarchyOutgoingCallsParams" [required "item" any]),
  ("textDocument/prepareTypeHierarchy", placed "TypeHierarchyPrepareParams" []),
  ("typeHierarchy/supertypes", tracked "TypeHierarchySupertypesParams" [required "item" any]),
  ("typeHierarchy/subtypes", tracked "TypeHierarchySubtypesParams" [required "item" any]),
  ("textDocument/documentHighlight", placedTracked "DocumentHighlightParams" []),
  ("textDocument/documentLink", documentParams "DocumentLinkParams"),
  ("documentLink/resolve", record "DocumentLink" [required "range" range, optional "target" uri,
    optional "tooltip" text, optional "data" any]),
  ("textDocument/codeLens", documentParams "CodeLensParams"),
  ("codeLens/resolve", record "CodeLens"
    [required "range" range, optional "command" command, optional "data" any]),
  ("textDocument/foldingRange", documentParams "FoldingRangeParams"),
  ("textDocument/selectionRange", tracked "SelectionRangeParams"
    [required "textDocument" document, required "positions" (list position)]),
  ("textDocument/documentSymbol", documentParams "DocumentSymbolParams"),
  ("textDocument/semanticTokens/full", documentParams "SemanticTokensParams"),
  ("textDocument/semanticTokens/full/delta", tracked "SemanticTokensDeltaParams"
    [required "textDocument" document, required "previousResultId" text]),
  ("textDocument/semanticTokens/range", tracked "SemanticTokensRangeParams"
    [required "textDocument" document, required "range" range]),
  ("textDocument/inlineValue", partParams "InlineValueParams" [required "context"
    (record "InlineValueContext" [required "frameId" int32, required "stoppedLocation" range])]),
  ("textDocument/inlayHint", partParams "InlayHintParams" []),
  ("inlayHint/resolve", joined "InlayHint"
    [record "InlayHint" [required "position" position, required "label" any]]),
  ("textDocument/moniker", placedTracked "MonikerParams" []),
  ("textDocument/diagnostic", tracked "DocumentDiagnosticParams" [required "textDocument" document,
    optional "identifier" text, optional "previousResultId" text]),
  ("workspace/diagnostic", tracked "WorkspaceDiagnosticParams" [optional "identifier" text,
    required "previousResultIds"
      (list (record "PreviousResultId" [required "uri" uri, required "value" text]))]),
  ("textDocument/signatureHelp", placed "SignatureHelpParams" [optional "context" any]),
  ("codeAction/resolve", joined "CodeAction" [record "CodeAction" [required "title" text]]),
  ("textDocument/documentColor", documentParams "DocumentColorParams"),
  ("textDocument/colorPresentation", tracked "ColorPresentationParams"
    [required "textDocument" document,
    required "color" (record "Color"
      [required "red" number, required "green" number, required "blue" number, required "alpha" number]),
    required "range" range]),
  ("textDocument/rangeFormatting",
    partParams "DocumentRangeFormattingParams" [required "options" formattingOptions]),
  ("textDocument/onTypeFormatting", joined "DocumentOnTypeFormattingParams" [
    record "DocumentOnTypeFormattingParams" [required "ch" text, required "options" formattingOptions],
    placeParams]),
  ("textDocument/linkedEditingRange", placed "LinkedEditingRangeParams" []),
  ("workspace/symbol", tracked "WorkspaceSymbolParams" [required "query" text]),
  ("workspaceSymbol/resolve", joined "WorkspaceSymbol" [record "WorkspaceSymbol" [required "name" text]]),
  ("workspace/willCreateFiles", filesParams "CreateFilesParams" "FileCreate" ["uri"]),
  ("workspace/willRenameFiles", filesParams "RenameFilesParams" "FileRename" ["oldUri", "newUri"]),
  ("workspace/willDeleteFiles", filesParams "DeleteFilesParams" "FileDelete" ["uri"]),
  ("workspace/executeCommand", joined "ExecuteCommandParams" [
    record "ExecuteCommandParams" [required "command" text, optional "arguments" (list any)], progress])]

end SchemaServer.Shape
