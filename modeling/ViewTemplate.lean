import ViewTemplate.Files.Store
import ViewTemplate.Main
import ViewTemplate.Proofs.Directive.Translation
import ViewTemplate.Proofs.Value.OrderedMap
import ViewTemplate.Proofs.Cache.Transparent
import ViewTemplate.Proofs.Code.Writing
import ViewTemplate.Proofs.Run.Looser
import ViewTemplate.Proofs.Cache.Edited
import ViewTemplate.Proofs.Cache.Once
import ViewTemplate.Proofs.Code.Built
import ViewTemplate.Proofs.Run.Effects
import ViewTemplate.Proofs.Directive.Stretches
import ViewTemplate.Proofs.Directive.Touching
import ViewTemplate.Proofs.Run.Frames
import ViewTemplate.Proofs.Run.Quiet
import ViewTemplate.Proofs.Run.NestedLoops
import ViewTemplate.Proofs.Directive.Comments
import ViewTemplate.Proofs.Directive.Unruled
import ViewTemplate.Proofs.Directive.Echoing
import ViewTemplate.Proofs.Directive.WordCalls
import ViewTemplate.Proofs.Directive.BareWords
import ViewTemplate.Proofs.Code.Numerals
import ViewTemplate.Proofs.Directive.NamedArguments
import ViewTemplate.Proofs.Run.OneCall
import ViewTemplate.Proofs.Directive.Delivery
import ViewTemplate.Proofs.Run.Unsetting
import ViewTemplate.Proofs.Run.Assigning
import ViewTemplate.Proofs.Run.Appending
import ViewTemplate.Proofs.Run.WhileFree
import ViewTemplate.Proofs.Value.Comparing
import ViewTemplate.Proofs.Run.Searching
import ViewTemplate.Proofs.Run.Arithmetic
import ViewTemplate.Proofs.Cache.Intact
import ViewTemplate.Proofs.Resolver.Containment
import ViewTemplate.Proofs.Directive.Progress
import ViewTemplate.Proofs.Run.FailingCalls
import ViewTemplate.Proofs.Directive.PlainText
import ViewTemplate.Proofs.Code.Lines
import ViewTemplate.Proofs.Run.Moments
import ViewTemplate.Proofs.Run.Raising
import ViewTemplate.Proofs.Run.Escaping
import ViewTemplate.Proofs.Directive.Passes
import ViewTemplate.Proofs.Code.Finishing
import ViewTemplate.Proofs.Value.Leading
