import ClientRoutes.Main
import ClientRoutes.Proofs.Settings.Precedence
import ClientRoutes.Proofs.Call.Signatures
import ClientRoutes.Proofs.Call.Order
import ClientRoutes.Proofs.Path.Normalizing
import ClientRoutes.Proofs.Path.Relative
import ClientRoutes.Proofs.Alias.Extension
import ClientRoutes.Proofs.Alias.Match
import ClientRoutes.Proofs.Alias.Resolve
import ClientRoutes.Proofs.Alias.Derive
import ClientRoutes.Proofs.Description.Merging
import ClientRoutes.Proofs.Hooks.Warnings
import ClientRoutes.Proofs.Hooks.Invalidation
import ClientRoutes.Proofs.Text.Letter
import ClientRoutes.Proofs.Casing.Words
import ClientRoutes.Proofs.Casing.Recasing
import ClientRoutes.Proofs.Casing.Names
import ClientRoutes.Proofs.Call.Validator
import ClientRoutes.Proofs.Description.Shape
import ClientRoutes.Proofs.Layout.Import
import ClientRoutes.Proofs.Call.SchemaNames
import ClientRoutes.Proofs.Call.References
import ClientRoutes.Proofs.Hooks.KeyFunction
import ClientRoutes.Proofs.Route.Additions
import ClientRoutes.Proofs.Description.Walk
import ClientRoutes.Proofs.Hooks.KeyConstant
import ClientRoutes.Proofs.Route.Segments
import ClientRoutes.Proofs.Hooks.HookName
import ClientRoutes.Proofs.Casing.Tokens
import ClientRoutes.Proofs.Route.UsageName
import ClientRoutes.Proofs.Route.UsageReading
import ClientRoutes.Proofs.Report.Selection
import ClientRoutes.Proofs.Hooks.Timing
import ClientRoutes.Proofs.Hooks.Directive
import ClientRoutes.Proofs.Description.Responses
import ClientRoutes.Proofs.Description.References
import ClientRoutes.Proofs.Alias.Climbing
import ClientRoutes.Proofs.Alias.Recovery
import ClientRoutes.Proofs.Alias.Beginning
import ClientRoutes.Proofs.Layout.Placement
import ClientRoutes.Proofs.Settings.FormerKeys
import ClientRoutes.Proofs.Hooks.Identifier
import ClientRoutes.Proofs.Description.Tags
import ClientRoutes.Proofs.Call.ArgumentNames
import ClientRoutes.Proofs.Script.Literals
import ClientRoutes.Proofs.Call.Dispatch
import ClientRoutes.Proofs.Hooks.KeyLiterals
import ClientRoutes.Proofs.Report.Sections
import ClientRoutes.Proofs.Run.Password
import ClientRoutes.Proofs.Hooks.DeclaredKey
