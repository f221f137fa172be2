import ApiInterfaces.Files.Tree
import ApiInterfaces.Main
import ApiInterfaces.Proofs.Document.Description
import ApiInterfaces.Proofs.Document.Expansion
import ApiInterfaces.Proofs.Document.Findings
import ApiInterfaces.Proofs.Document.Loading
import ApiInterfaces.Proofs.Files.OutputPath
import ApiInterfaces.Proofs.Generation
import ApiInterfaces.Proofs.Interface.Framing
import ApiInterfaces.Proofs.Interface.Legality
import ApiInterfaces.Proofs.Interface.Meaning
import ApiInterfaces.Proofs.Interface.MemberReading
import ApiInterfaces.Proofs.Interface.ReservedWords
import ApiInterfaces.Proofs.Interface.TypeReading
import ApiInterfaces.Proofs.Naming.Claims
import ApiInterfaces.Proofs.Naming.Runs
import ApiInterfaces.Proofs.Schema.Reading
import ApiInterfaces.Proofs.Yaml.Entries
